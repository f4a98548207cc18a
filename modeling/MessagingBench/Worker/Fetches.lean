import MessagingBench.Worker.Records
import MessagingBench.Worker.Symbolic

/-!
# Fetching key packages and welcomes

The delivery service hands out a key package or a welcome by removing it. As long as no
response with an item is lost and no fetch fails after another one of its command has removed
an item, every removed item is returned to the call that asked for it.
-/

namespace MessagingBench.Worker

open World Delivery

variable {M : Mls}

def removedItem (servers : Servers) : Request → Option Bytes
  | .fetchKeyPackage owner => servers.ds.keyPackages owner
  | .fetchWelcome recipient => (servers.ds.welcomeInboxes recipient).bind List.head?
  | _ => none

theorem handle_bytes_iff {order : List String} {servers : Servers} {request : Request}
    {body : Bytes} : (handle order servers request).1 = ok (.bytes body) ↔
      removedItem servers request = some body := by
  cases request with
  | fetchKeyPackage owner =>
    simp only [handle, removedItem, DeliveryService.fetchKeyPackage]
    cases servers.ds.keyPackages owner <;> simp [ok, notFound]
  | fetchWelcome recipient =>
    simp only [handle, removedItem, DeliveryService.fetchWelcome]
    cases servers.ds.welcomeInboxes recipient with
    | none => simp [ok, notFound]
    | some queue => cases queue <;> simp [ok, notFound]
  | publishKeyPackage | fetchPendingCommits | publishWelcome => simp [handle, removedItem, ok]
  | putGroupState | publishGroupCommit =>
    simp only [handle, removedItem, reduceCtorEq, iff_false]
    split <;> simp [ok, conflict]
  | fetchPendingCommit | fetchPendingApplicationMessage =>
    simp only [handle, removedItem, reduceCtorEq, iff_false]
    split <;> simp [ok, notFound]
  | ackCommit | ackApplicationMessage =>
    simp only [handle, removedItem, reduceCtorEq, iff_false]
    split <;> simp [ok]
  | publishApplicationMessage =>
    simp only [handle, removedItem, reduceCtorEq, iff_false]
    split
    · simp [ok, badRequest]
    · split <;> simp [ok, badRequest]

/-- The request that is processed in a step, and its call returns these bytes. -/
def Returned (urls : Urls) (world : World M) (action : Action) (request : Request)
    (body : Bytes) : Prop :=
  ∃ sending, world.sends action = some sending ∧ sending.request = request ∧
    Event.concluded sending.call sending.job request (.ok (.bytes body)) ∈
      (world.step urls action).log.events

/-- What leaves the stores in a step is returned by the call whose request took it. -/
structure ItemsReturned (urls : Urls) (world : World M) (action : Action) : Prop where
  keyPackage : ∀ owner body, world.servers.ds.keyPackages owner = some body →
    (world.step urls action).servers.ds.keyPackages owner = none →
    Returned urls world action (.fetchKeyPackage owner) body
  welcome : ∀ recipient,
    world.welcomes recipient <+: (world.step urls action).welcomes recipient ∨
      ∃ body, world.welcomes recipient = body :: (world.step urls action).welcomes recipient ∧
        Returned urls world action (.fetchWelcome recipient) body

/-- In a run, whatever leaves the stores of key packages and welcomes is returned to the worker
that asked for it, and no key package leaves for a command one of whose fetches fails. -/
structure FetchesKept (urls : Urls) (start : World M) (schedule : List Action) : Prop where
  returned : ∀ earlier action later, schedule = earlier ++ action :: later →
    ItemsReturned urls (execute (step urls) start earlier) action
  collected : ∀ earlier action later owner sending, schedule = earlier ++ action :: later →
    (execute (step urls) start earlier).servers.ds.keyPackages owner ≠ none →
    ((execute (step urls) start earlier).step urls action).servers.ds.keyPackages owner = none →
    (execute (step urls) start earlier).sends action = some sending → ∀ id member text,
      Event.concluded id sending.job (.fetchKeyPackage member) (.error text) ∉
        (execute (step urls) start schedule).log.events

/-- An item is removed in this step, but the response is lost. -/
def losesItem (world : World M) (action : Action) : Bool :=
  match world.sends action with
  | some sending => !sending.heard && (removedItem world.servers sending.request).isSome
  | none => false

/-- A key package was handed out to a call of the job. -/
def handedTo (job : Job) : Event → Bool
  | .served _ job' (.fetchKeyPackage _) ⟨200, .bytes _⟩ _ => job' == job
  | _ => false

/-- A key package fetch fails in this step after another one of its command was handed
a key package. -/
def failsAfterFetch (world : World M) (action : Action) : Bool :=
  match world.fails action with
  | some (job, .fetchKeyPackage _, _) => world.log.events.any (handedTo job)
  | _ => false

/-- A worker that waits for key packages has no failed fetch in its job, nor has one that was
handed a key package. -/
structure FetchesSound (world : World M) : Prop where
  kept : Kept world
  waiting : ∀ worker job pending, Waits world worker job pending → ∀ call ∈ pending, ∀ member,
    call.request = .fetchKeyPackage member → ∀ id member' text,
      Event.concluded id job (.fetchKeyPackage member') (.error text) ∉ world.log.events
  collected : ∀ id job member text,
    Event.concluded id job (.fetchKeyPackage member) (.error text) ∈ world.log.events →
    ∀ id' member' body heard,
      Event.served id' job (.fetchKeyPackage member') (ok (.bytes body)) heard ∉ world.log.events

section Step

variable {world : World M} {urls : Urls} {action : Action} {body : Bytes} {sending : Sending}

/-- A response with an item that is given in a step arrives. -/
theorem heard_of_not_losesItem
    (hguard : losesItem world action = false) (hsends : world.sends action = some sending)
    (hbody : (handle sending.order world.servers sending.request).1 = ok (.bytes body)) :
    sending.heard = true := by
  simpa [losesItem, hsends, handle_bytes_iff.mp hbody] using hguard

theorem retryDecision_bytes {order : List String} {servers : Servers} {request : Request}
    (h : (handle order servers request).1 = ok (.bytes body)) :
    request.retryDecision (handle order servers request).1 = .success (.bytes body) := by
  have hremoved := handle_bytes_iff.mp h
  rw [h]
  cases request with
  | fetchKeyPackage | fetchWelcome => rfl
  | publishKeyPackage | putGroupState | publishGroupCommit | fetchPendingCommit | ackCommit |
    fetchPendingCommits | publishWelcome | publishApplicationMessage |
    fetchPendingApplicationMessage | ackApplicationMessage => cases hremoved

theorem FetchesSound.waiting_step (h : FetchesSound world) {worker : String} {job : Job}
    {pending : List Call} {call : Call} {member : String}
    (hwaits : Waits (world.step urls action) worker job pending) (hcall : call ∈ pending)
    (hrequest : call.request = .fetchKeyPackage member) (id : Nat) (member' text : String) :
    Event.concluded id job (.fetchKeyPackage member') (.error text) ∉
      (world.step urls action).log.events := by
  intro hmem
  rcases waits_step urls action h.kept hwaits with ⟨_, state, _, _, hmay⟩ | ⟨hbefore, hopen⟩
  · have hfirst := hmay call hcall
    unfold mayCall at hfirst
    rw [hrequest] at hfirst
    exact hfirst _ _ _ hmem
  · rcases hopen _ _ _ hmem with hold | ⟨⟨reply, hreply⟩, -⟩
    · exact h.waiting worker job pending hbefore call hcall member hrequest id member' text hold
    · cases hreply

/-- A call that takes an item out of the stores returns it, if the response arrives. -/
theorem returned_of_not_losesItem (hkept : Kept world)
    (hguard : losesItem world action = false) (hsends : world.sends action = some sending)
    (hitem : removedItem world.servers sending.request = some body) :
    Returned urls world action sending.request body := by
  have hbody := @handle_bytes_iff sending.order _ _ _ |>.mpr hitem
  exact ⟨sending, hsends, rfl, concluded_of_heard urls action hkept hsends
    (heard_of_not_losesItem hguard hsends hbody) (retryDecision_bytes hbody)⟩

theorem removes_keyPackage {owner : String}
    (hbefore : world.servers.ds.keyPackages owner = some body)
    (hafter : (world.step urls action).servers.ds.keyPackages owner = none) :
    ∃ sending, world.sends action = some sending ∧ sending.request = .fetchKeyPackage owner := by
  rw [servers_step, serversAfter] at hafter
  cases hsends : world.sends action with
  | none => simp [hsends, hbefore] at hafter
  | some sending =>
    refine ⟨sending, rfl, ?_⟩
    simp only [hsends, stores_handle.1] at hafter
    cases hrequest : sending.request with
    | publishKeyPackage other | fetchKeyPackage other =>
      simp only [hrequest] at hafter
      by_cases hother : owner = other
      · simp_all
      · rw [Function.update_of_ne hother, hbefore] at hafter
        cases hafter
    | _ => simp [hrequest, hbefore] at hafter

theorem removes_welcome {recipient : String} :
    world.welcomes recipient <+: (world.step urls action).welcomes recipient ∨
      ∃ body sending, world.welcomes recipient =
          body :: (world.step urls action).welcomes recipient ∧
        world.sends action = some sending ∧ sending.request = .fetchWelcome recipient ∧
        removedItem world.servers sending.request = some body := by
  unfold welcomes
  rw [servers_step, serversAfter]
  cases hsends : world.sends action with
  | none => exact .inl (List.prefix_refl _)
  | some sending =>
    simp only [stores_handle.2]
    cases hrequest : sending.request with
    | publishWelcome other body =>
      by_cases hother : recipient = other
      · subst hother
        simp [DeliveryService.publishWelcome]
      · simp [DeliveryService.publishWelcome, Function.update_of_ne hother]
    | fetchWelcome other =>
      simp only [DeliveryService.fetchWelcome, removedItem]
      cases hqueue : world.servers.ds.welcomeInboxes other with
      | none => exact .inl (List.prefix_refl _)
      | some queue =>
        by_cases hother : recipient = other
        · subst hother
          cases queue with
          | nil => simp [hqueue]
          | cons body queue =>
            exact .inr ⟨body, sending, by simp [hqueue], rfl, hrequest, by simp [hrequest, hqueue]⟩
        · simp [Function.update_of_ne hother]
    | _ => exact .inl (List.prefix_refl _)

/-- A step that loses no item returns what it takes out of the stores. -/
theorem itemsReturned_of_not_losesItem (hkept : Kept world)
    (hguard : losesItem world action = false) : ItemsReturned urls world action := by
  constructor
  · intro owner body hbefore hafter
    obtain ⟨sending, hsends, hrequest⟩ := removes_keyPackage hbefore hafter
    exact hrequest ▸ returned_of_not_losesItem hkept hguard hsends
      (by rw [hrequest]; exact hbefore)
  · intro recipient
    refine removes_welcome.imp_right ?_
    rintro ⟨body, sending, hqueue, hsends, hrequest, hitem⟩
    exact ⟨body, hqueue, hrequest ▸ returned_of_not_losesItem hkept hguard hsends hitem⟩

/-- A step that loses no item keeps failed collections without key packages. -/
theorem FetchesSound.step (h : FetchesSound world) (hlost : losesItem world action = false)
    (hfails : failsAfterFetch world action = false) : FetchesSound (world.step urls action) := by
  refine ⟨h.kept.step urls action, ?_, ?_⟩
  · intro worker job pending hwaits call hcall member hrequest id member' text
    exact h.waiting_step hwaits hcall hrequest id member' text
  · intro id job member text hconcluded id' member' body heard hserved
    rcases served_step h.kept hserved with hold | ⟨order, hsends, hbody⟩
    · by_cases hbefore : Event.concluded id job (.fetchKeyPackage member) (.error text) ∈
          world.log.events
      · exact h.collected id job member text hbefore id' member' body heard hold
      · obtain ⟨fate, order, hfails', -⟩ := fails_of_failed h.kept hconcluded hbefore
        simp only [failsAfterFetch, hfails', List.any_eq_false] at hfails
        exact hfails _ hold (by simp [handedTo, ok])
    · have hheard := heard_of_not_losesItem hlost hsends hbody.symm
      obtain ⟨run, elapsedMs, rfl, heq⟩ := sends_heard action hsends hheard
      obtain ⟨rfl, rfl, hrequest, -⟩ := Sending.mk.inj heq
      rcases concluded_step h.kept hconcluded with hbefore |
        ⟨run', _, _, _, haction, -, -, -, hends⟩
      · exact h.waiting _ _ _ run.waits run.call (run.mem_pending h.kept) member' hrequest.symm id
          member text hbefore
      · obtain ⟨hworker, hindex, rfl, rfl, rfl⟩ := Action.attempt.inj haction
        cases run.unique run' hworker hindex
        have hdecision := retryDecision_bytes hbody.symm
        rw [hrequest] at hdecision
        simp [RunningCall.sent, transmit, hdecision, callEnd] at hends

end Step

theorem FetchesSound.init (mode : CommitDeliveryMode) (crypto : String → Option M.Crypto) :
    FetchesSound (init mode crypto : World M) := by
  refine ⟨.init mode crypto, ?_, ?_⟩
  · rintro worker job pending ⟨envelope, state, next, calls, hbusy⟩
    simp [World.init] at hbusy
  · intro _ _ _ _ hmem
    cases hmem

theorem fetchesSound_execute {urls : Urls} {mode : CommitDeliveryMode}
    {crypto : String → Option M.Crypto} {schedule : List Action}
    (hrun : Guarded (step urls) (fun world action =>
      losesItem world action = false ∧ failsAfterFetch world action = false)
      (init mode crypto) schedule) :
    FetchesSound (execute (step urls) (init mode crypto) schedule) :=
  hrun.invariant (fun _ _ h hguard => h.step hguard.1 hguard.2) (.init mode crypto)

/-- In every run in which no response with an item is lost and no key package fetch fails
after another one of its command was handed a key package, every item that leaves the
stores is returned by the call that asked for it, and a failed collection takes nothing. -/
theorem fetches_kept (urls : Urls) (mode : CommitDeliveryMode)
    (crypto : String → Option M.Crypto) (schedule : List Action)
    (hrun : Guarded (step urls) (fun world action =>
      losesItem world action = false ∧ failsAfterFetch world action = false)
      (init mode crypto) schedule) :
    FetchesKept urls (init mode crypto) schedule := by
  constructor
  · rintro earlier action later rfl
    obtain ⟨hearlier, hguard, -⟩ := (guarded_append ..).mp hrun
    exact itemsReturned_of_not_losesItem (fetchesSound_execute hearlier).kept hguard.1
  · rintro earlier action later owner sending rfl hbefore hafter hsends id member text hconcluded
    obtain ⟨body, hbody⟩ := Option.ne_none_iff_exists'.mp hbefore
    have hearlier := fetchesSound_execute ((guarded_append ..).mp hrun).1
    obtain ⟨sending', hsends', hrequest⟩ := removes_keyPackage hbody hafter
    cases hsends.symm.trans hsends'
    have hserved := served_of_sends urls hearlier.kept hsends
    have hitem : removedItem _ (.fetchKeyPackage owner) = some body := hbody
    rw [hrequest, handle_bytes_iff.mpr hitem] at hserved
    refine (fetchesSound_execute hrun).collected id sending.job member text hconcluded
      sending.call owner body sending.heard ?_
    rw [execute_append, execute_cons]
    exact mem_execute_of_mem (hearlier.kept.step urls action) later hserved

/-- Alice fails to add carol, who has no key package, and adds bob. -/
def carolThenBob : List Action :=
  [.start "alice" ⟨.createGroup, none⟩, .attempt "alice" 0 .answered [] 0, .proceed "alice",
    .start "alice" ⟨.addMembers ["carol"], none⟩, .attempt "alice" 0 .answered [] 0,
    .proceed "alice",
    .start "bob" ⟨.generateKeyPackage, none⟩, .attempt "bob" 0 .answered [] 0, .proceed "bob",
    .start "alice" ⟨.addMembers ["bob"], none⟩, .attempt "alice" 0 .answered [] 0,
    .attempt "alice" 0 .answered [] 0, .proceed "alice"]

set_option maxRecDepth 8000 in
theorem fetches_kept_carolThenBob :
    Event.concluded 3 ⟨"alice", 3⟩ (.fetchKeyPackage "bob") (.ok (.bytes [98, 111, 98])) ∈
        (Symbolic.record ["alice", "bob"] carolThenBob).events ∧
      FetchesKept Symbolic.urls (init .perRecipient (Symbolic.crypto ["alice", "bob"]))
        carolThenBob :=
  ⟨by decide, fetches_kept Symbolic.urls .perRecipient (Symbolic.crypto ["alice", "bob"])
    carolThenBob (by decide)⟩

/-- Alice creates a group, bob has a key package, and alice adds members. -/
def addingMembers (members : List String) : List Action :=
  [.start "alice" ⟨.createGroup, none⟩, .attempt "alice" 0 .answered [] 0, .proceed "alice",
    .start "bob" ⟨.generateKeyPackage, none⟩, .attempt "bob" 0 .answered [] 0, .proceed "bob",
    .start "alice" ⟨.addMembers members, none⟩]

/-- The response with bob's key package is lost; the retry finds none. -/
def lostKeyPackage : List Action :=
  addingMembers ["bob"] ++ [.attempt "alice" 0 (.lost .now true "timeout") [] 0,
    .attempt "alice" 0 .answered [] 0, .proceed "alice"]

/-- Bob's key package is handed out, then carol's is found missing. -/
def bobAndCarol : List Action :=
  addingMembers ["bob", "carol"] ++ [.attempt "alice" 0 .answered [] 0,
    .attempt "alice" 1 .answered [] 0, .proceed "alice"]

set_option maxRecDepth 8000 in
/-- A lost response loses a key package, and so does a collection that fails half-way. -/
theorem fetches_lost :
    ¬FetchesKept Symbolic.urls (init .perRecipient (Symbolic.crypto ["alice", "bob"]))
        lostKeyPackage ∧
      ¬FetchesKept Symbolic.urls (init .perRecipient (Symbolic.crypto ["alice", "bob"]))
        bobAndCarol := by
  constructor
  · intro h
    obtain ⟨sending, hsends, -, hconcluded⟩ := (h.returned (addingMembers ["bob"])
      (.attempt "alice" 0 (.lost .now true "timeout") [] 0) _ rfl).keyPackage "bob"
      [98, 111, 98] (by decide) (by decide)
    obtain rfl : ⟨2, ⟨"alice", 2⟩, .fetchKeyPackage "bob", [], false⟩ = sending :=
      Option.some.inj hsends
    exact absurd hconcluded (by decide)
  · intro h
    refine h.collected (addingMembers ["bob", "carol"]) (.attempt "alice" 0 .answered [] 0) _ "bob"
      ⟨2, ⟨"alice", 2⟩, .fetchKeyPackage "bob", [], true⟩ rfl (by decide) (by decide) (by decide)
      3 "carol" ("fetch_keypackage failed: client=alice url=http://ds/keypackage/carol " ++
        "attempts=1 elapsed_ms=0 cause=DS GET failed with status 404 Not Found: ") (by decide)

end MessagingBench.Worker
