import MessagingBench.Worker.Cache
import MessagingBench.Worker.Commands

/-!
# The command actor of a client

An actor handles the commands of one client one after the other. A command whose request id
has a cached response is answered from the cache; any other is executed, and its response is
cached whatever it says. The outcome of an execution is part of its arrival, so that the
results hold for every behaviour of client and services.
-/

namespace MessagingBench.Worker

variable {σ : Type}

structure ClientSlot (σ : Type) where
  state : σ
  responseCache : CompletedCommandCache
  clock : Nat

/-- A command that reaches the actor some time after it has become idle; `run` is what
its execution does at that point, and how long that takes. -/
structure Arrival (σ : Type) where
  requestId : Option String
  envelope : Envelope
  waited : Nat
  lasted : Nat
  run : σ → Except String String × σ

/-- The response to a command, and whether the command was executed for it. -/
structure Handled where
  response : CommandResponse
  executed : Bool
  deriving DecidableEq, Repr

namespace ClientSlot

def new (state : σ) (maxEntries ttl clock : Nat) : ClientSlot σ :=
  ⟨state, .new maxEntries ttl, clock⟩

variable (slot : ClientSlot σ)

/-- The cached response for an arrival. Without a request id the cache is not asked. -/
def cached (arrival : Arrival σ) : Option CommandResponse × CompletedCommandCache :=
  match arrival.requestId with
  | some requestId => slot.responseCache.get (slot.clock + arrival.waited) requestId
  | none => (none, slot.responseCache)

/-- One round of the loop of `client_command_actor`. -/
def clientCommandActor (arrival : Arrival σ) : Handled × ClientSlot σ :=
  let arrived := slot.clock + arrival.waited
  match slot.cached arrival with
  | (some response, cache) => (⟨response, false⟩, ⟨slot.state, cache, arrived⟩)
  | (none, cache) =>
    let (result, state) := arrival.run slot.state
    let response := CommandResponse.ofResult result
    let completed := arrived + arrival.lasted
    let cache := match arrival.requestId with
      | some requestId => cache.insert completed requestId response
      | none => cache
    (⟨response, true⟩, ⟨state, cache, completed⟩)

def step (arrival : Arrival σ) : ClientSlot σ := (slot.clientCommandActor arrival).2

/-- The completion that an arrival adds to the history of its client. -/
def completion (arrival : Arrival σ) : Option Completion :=
  let (handled, next) := slot.clientCommandActor arrival
  if handled.executed then
    arrival.requestId.map fun requestId => ⟨requestId, handled.response, next.clock⟩
  else none

/-- The history of a client: what its actor has completed under a request id. -/
def history (arrivals : List (Arrival σ)) : List Completion :=
  outputs step completion slot arrivals

/-- What the actor can replay when it handles an arrival. -/
def replayable (past : List Completion) (arrival : Arrival σ) : List Completion :=
  CompletedCommandCache.recent slot.responseCache.maxEntries slot.responseCache.ttl
    (slot.clock + arrival.waited) past

section Handling

variable {slot} {arrival : Arrival σ} {past : List Completion}

theorem clientCommandActor_replay {response : CommandResponse}
    (h : (slot.cached arrival).1 = some response) : slot.clientCommandActor arrival =
      (⟨response, false⟩, ⟨slot.state, (slot.cached arrival).2, slot.clock + arrival.waited⟩) := by
  have hcached : slot.cached arrival = (some response, (slot.cached arrival).2) := by rw [← h]
  unfold clientCommandActor
  rw [hcached]

/-- Any other command is executed and answered with what its execution returns. -/
theorem clientCommandActor_execute (h : (slot.cached arrival).1 = none) :
    (slot.clientCommandActor arrival).1 = ⟨.ofResult (arrival.run slot.state).1, true⟩ ∧
      (slot.step arrival).clock = slot.clock + arrival.waited + arrival.lasted ∧
      (slot.step arrival).responseCache = match arrival.requestId with
        | some requestId => (slot.cached arrival).2.insert
            (slot.clock + arrival.waited + arrival.lasted) requestId
            (.ofResult (arrival.run slot.state).1)
        | none => (slot.cached arrival).2 := by
  have hcached : slot.cached arrival = (none, (slot.cached arrival).2) := by rw [← h]
  unfold step clientCommandActor
  rw [hcached]
  exact ⟨rfl, rfl, rfl⟩

theorem clientCommandActor_executed_iff :
    (slot.clientCommandActor arrival).1.executed = true ↔ (slot.cached arrival).1 = none := by
  cases hcached : (slot.cached arrival).1 with
  | none => simp [(clientCommandActor_execute hcached).1]
  | some response => simp [clientCommandActor_replay hcached]

theorem cached_maxEntries : (slot.cached arrival).2.maxEntries = slot.responseCache.maxEntries := by
  unfold cached
  split
  · exact CompletedCommandCache.pruneExpired_maxEntries
  · rfl

theorem cached_ttl : (slot.cached arrival).2.ttl = slot.responseCache.ttl := by
  unfold cached
  split
  · exact CompletedCommandCache.pruneExpired_ttl
  · rfl

theorem cached_eq_none_iff (h : slot.responseCache.Tracks slot.clock past) :
    (slot.cached arrival).1 = none ↔
      ∀ requestId, arrival.requestId = some requestId →
        requestId ∉ (slot.replayable past arrival).keys := by
  unfold cached
  split
  · rename_i requestId hid
    rw [h.get_eq (Nat.le_add_right _ _), Option.map_eq_none_iff, List.dlookup_eq_none, hid]
    constructor
    · rintro hnot _ ⟨⟩
      exact hnot
    · exact fun hnot => hnot requestId rfl
  · rename_i hid
    simp [hid]

theorem tracks_cached (h : slot.responseCache.Tracks slot.clock past) :
    (slot.cached arrival).2.Tracks (slot.clock + arrival.waited) past := by
  unfold cached
  split
  · exact h.prune (Nat.le_add_right _ _)
  · exact h.later (Nat.le_add_right _ _)

/-- A step of the actor extends the history by what it completes. -/
theorem tracks_step (h : slot.responseCache.Tracks slot.clock past) (arrival : Arrival σ) :
    (slot.step arrival).responseCache.Tracks (slot.step arrival).clock
      (past ++ (slot.completion arrival).toList) := by
  have htracks : (slot.cached arrival).2.Tracks (slot.clock + arrival.waited) past :=
    tracks_cached h
  cases hcached : (slot.cached arrival).1 with
  | some response =>
    have hactor := clientCommandActor_replay hcached
    simpa [step, completion, hactor] using htracks
  | none =>
    obtain ⟨hhandled, hclock, hcache⟩ := clientCommandActor_execute hcached
    have hle : slot.clock + arrival.waited ≤ slot.clock + arrival.waited + arrival.lasted :=
      Nat.le_add_right _ _
    have hcompletion : slot.completion arrival = arrival.requestId.map fun requestId =>
        ⟨requestId, .ofResult (arrival.run slot.state).1, (slot.step arrival).clock⟩ := by
      simp [completion, hhandled, step]
    rw [hcompletion, hcache, hclock]
    cases hid : arrival.requestId with
    | none => simpa using htracks.later hle
    | some requestId =>
      refine htracks.insert hle ?_
      -- what is not replayable on arrival is not replayable on completion either
      have hnot := (cached_eq_none_iff h).mp hcached requestId hid
      rw [cached_maxEntries, cached_ttl]
      intro hmem
      refine hnot (List.Sublist.subset ?_ hmem)
      exact (CompletedCommandCache.recent_sublist hle).map Sigma.fst

theorem tracks_execute (h : slot.responseCache.Tracks slot.clock past)
    (arrivals : List (Arrival σ)) :
    (execute step slot arrivals).responseCache.Tracks (execute step slot arrivals).clock
      (past ++ slot.history arrivals) := by
  induction arrivals generalizing slot past with
  | nil => simpa [history, outputs] using h
  | cons arrival arrivals ih =>
    have hrest := ih (tracks_step h arrival)
    rw [List.append_assoc] at hrest
    exact hrest

theorem executed_iff {state : σ} {maxEntries ttl clock : Nat} {earlier : List (Arrival σ)}
    {arrival : Arrival σ} :
    ((execute step (new state maxEntries ttl clock) earlier).clientCommandActor
      arrival).1.executed = true ↔ ∀ requestId, arrival.requestId = some requestId →
        requestId ∉ ((execute step (new state maxEntries ttl clock) earlier).replayable
          ((new state maxEntries ttl clock).history earlier) arrival).keys := by
  have hnew : (new state maxEntries ttl clock).responseCache.Tracks
      (new state maxEntries ttl clock).clock [] := CompletedCommandCache.tracks_new ..
  rw [clientCommandActor_executed_iff]
  exact cached_eq_none_iff (tracks_execute hnew earlier)

end Handling

end ClientSlot

structure BatchCommandItem where
  clientId : String
  requestId : Option String
  command : Command
  expectedEpoch : Option Delivery.Epoch
  deriving DecidableEq, Repr

structure BatchCommandResult where
  clientId : String
  requestId : Option String
  response : CommandResponse
  deriving DecidableEq, Repr

/-- The course of the task for an item: what its command does when it is executed, and
whether the task ends normally. The result of a task that panics is not collected. -/
structure ItemTask (σ : Type) where
  waited : Nat
  lasted : Nat
  run : σ → Except String String × σ
  joins : Bool

def BatchCommandItem.arrival (item : BatchCommandItem) (task : ItemTask σ) : Arrival σ :=
  ⟨item.requestId, ⟨item.command, item.expectedEpoch⟩, task.waited, task.lasted, task.run⟩

end MessagingBench.Worker
