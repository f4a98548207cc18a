import Mathlib.Data.List.AList
import MessagingBench.Core.Window

/-!
# The cache of completed commands

A worker keeps the responses of completed commands under their request ids, in the
order of completion, up to a maximal number and a maximal age. Seen from outside the
cache is a list of completions: pruning drops the expired ones in front, an insertion
of a new id appends one and keeps the last ones.
-/

namespace MessagingBench.Worker

open List

structure CommandResponse where
  status : String
  message : String
  deriving DecidableEq, Repr

namespace CommandResponse

def ok (message : String) : CommandResponse := ⟨"ok", message⟩

def error (message : String) : CommandResponse := ⟨"error", message⟩

def ofResult : Except String String → CommandResponse
  | .ok message => ok message
  | .error text => error text

end CommandResponse

structure CachedCommandResponse where
  response : CommandResponse
  completedAt : Nat
  deriving DecidableEq, Repr

/-- A request id with its cached response. -/
abbrev Completion : Type := (_ : String) × CachedCommandResponse

abbrev CachedEntries : Type := AList fun _ : String => CachedCommandResponse

/-- Times and durations are counted in one unit of the monotonic clock. -/
structure CompletedCommandCache where
  entries : CachedEntries
  order : List String
  maxEntries : Nat
  ttl : Nat

namespace CompletedCommandCache

def new (maxEntries ttl : Nat) : CompletedCommandCache := ⟨∅, [], maxEntries, ttl⟩

/-- An id without an entry counts as expired. -/
def isExpired (ttl now : Nat) (entries : CachedEntries) (requestId : String) : Bool :=
  match entries.lookup requestId with
  | some cached => decide (ttl < now - cached.completedAt)
  | none => true

/-- Drop expired ids from the front of the order. -/
def dropExpired (ttl now : Nat) : List String → CachedEntries → List String × CachedEntries
  | [], entries => ([], entries)
  | requestId :: order, entries =>
    if isExpired ttl now entries requestId then
      dropExpired ttl now order (entries.erase requestId)
    else (requestId :: order, entries)

/-- Drop the oldest ids while there are too many entries. -/
def dropOldest (maxEntries : Nat) : List String → CachedEntries → List String × CachedEntries
  | [], entries => ([], entries)
  | oldest :: order, entries =>
    if maxEntries < entries.entries.length then
      dropOldest maxEntries order (entries.erase oldest)
    else (oldest :: order, entries)

variable (cache : CompletedCommandCache)

def pruneExpired (now : Nat) : CompletedCommandCache :=
  if cache.ttl = 0 then { cache with entries := ∅, order := [] }
  else
    let (order, entries) := dropExpired cache.ttl now cache.order cache.entries
    { cache with order := order, entries := entries }

def get (now : Nat) (requestId : String) : Option CommandResponse × CompletedCommandCache :=
  let cache := cache.pruneExpired now
  ((cache.entries.lookup requestId).map (·.response), cache)

def insert (now : Nat) (requestId : String) (response : CommandResponse) :
    CompletedCommandCache :=
  if cache.maxEntries = 0 then cache
  else
    let cache := cache.pruneExpired now
    let order := if (cache.entries.lookup requestId).isSome then cache.order
      else cache.order ++ [requestId]
    let entries := cache.entries.insert requestId ⟨response, now⟩
    let (order, entries) := dropOldest cache.maxEntries order entries
    { cache with order := order, entries := entries }

/-- The order and the entries are those of a list of completions, oldest first. -/
structure Represents (order : List String) (entries : CachedEntries) (live : List Completion) :
    Prop where
  order_eq : order = live.keys
  perm : entries.entries.Perm live

def tooOld (ttl now : Nat) (completion : Completion) : Bool :=
  decide (ttl < now - completion.2.completedAt)

variable {requestId : String}

section Represents

variable {cache} {order : List String} {entries : CachedEntries} {live : List Completion}
  {maxEntries ttl now : Nat}

theorem Represents.nodupKeys (h : Represents order entries live) : live.NodupKeys :=
  (perm_nodupKeys h.perm).mp entries.nodupKeys

theorem Represents.length_eq (h : Represents order entries live) :
    entries.entries.length = live.length := h.perm.length_eq

/-- What is found under an id is the completion of that id. -/
theorem Represents.lookup_eq (h : Represents order entries live) (requestId : String) :
    entries.lookup requestId = live.dlookup requestId :=
  perm_dlookup requestId entries.nodupKeys h.perm

/-- Removing the oldest id removes the oldest completion. -/
theorem Represents.erase {completion : Completion}
    (h : Represents order entries (completion :: live)) :
    Represents live.keys (entries.erase completion.1) live := by
  refine ⟨rfl, ?_⟩
  have hperm := h.perm.kerase entries.nodupKeys (a := completion.1)
  rwa [kerase_cons_eq rfl] at hperm

/-- Pruning keeps the completions from the first one on that is not too old. -/
theorem Represents.dropExpired (h : Represents order entries live) :
    Represents (CompletedCommandCache.dropExpired ttl now order entries).1
      (CompletedCommandCache.dropExpired ttl now order entries).2
      (live.dropWhile (tooOld ttl now)) := by
  induction live generalizing order entries with
  | nil =>
    obtain rfl : order = [] := h.order_eq
    exact h
  | cons completion live ih =>
    obtain rfl := h.order_eq
    have hexpired : isExpired ttl now entries completion.1 = tooOld ttl now completion := by
      rw [isExpired, h.lookup_eq, dlookup_cons_eq]
      rfl
    simp only [keys_cons, CompletedCommandCache.dropExpired, hexpired, dropWhile_cons]
    split
    · exact ih h.erase
    · exact h

/-- Dropping the oldest ids keeps the last completions. -/
theorem Represents.dropOldest (h : Represents order entries live) :
    Represents (CompletedCommandCache.dropOldest maxEntries order entries).1
      (CompletedCommandCache.dropOldest maxEntries order entries).2 (live.rtake maxEntries) := by
  induction live generalizing order entries with
  | nil =>
    obtain rfl : order = [] := h.order_eq
    simpa [rtake, CompletedCommandCache.dropOldest] using h
  | cons completion live ih =>
    obtain rfl := h.order_eq
    simp only [keys_cons, CompletedCommandCache.dropOldest, h.length_eq, length_cons]
    split
    · rename_i hlt
      have htake : (completion :: live).rtake maxEntries = live.rtake maxEntries := by
        unfold rtake
        rw [length_cons, Nat.succ_sub (Nat.lt_succ_iff.mp hlt), drop_succ_cons]
      rw [htake]
      exact ih h.erase
    · rename_i hge
      have htake : (completion :: live).rtake maxEntries = completion :: live := by
        unfold rtake
        rw [length_cons, Nat.sub_eq_zero_of_le (Nat.not_lt.mp hge), drop_zero]
      rw [htake]
      exact h

/-- Appending the completion of a new id. -/
theorem Represents.insert (h : Represents order entries live) {cached : CachedCommandResponse}
    (hnew : requestId ∉ live.keys) :
    Represents (order ++ [requestId]) (entries.insert requestId cached)
      (live ++ [⟨requestId, cached⟩]) := by
  have hnot : requestId ∉ entries := by
    intro hmem
    exact hnew ((h.perm.map Sigma.fst).subset hmem)
  refine ⟨?_, ?_⟩
  · rw [h.order_eq]
    simp [keys]
  · rw [AList.entries_insert_of_notMem hnot]
    exact (h.perm.cons _).trans (perm_append_singleton _ _).symm

end Represents

/-- The cache remembers a window of the history of completions up to a time. A cache
without a time to live remembers nothing. -/
structure Tracks (cache : CompletedCommandCache) (clock : Nat) (history : List Completion) :
    Prop where
  sorted : history.Pairwise fun earlier later => earlier.2.completedAt ≤ later.2.completedAt
  past : ∀ completion ∈ history, completion.2.completedAt ≤ clock
  represents : cache.ttl ≠ 0 → ∃ pruned ≤ clock, Represents cache.order cache.entries
    (window (tooOld cache.ttl pruned) cache.maxEntries history)

/-- What a cache is for: the last completions, up to a maximal number and age. -/
def recent (maxEntries ttl now : Nat) (history : List Completion) : List Completion :=
  if ttl = 0 then [] else window (tooOld ttl now) maxEntries history

section Tracks

variable {cache} {clock now : Nat} {history : List Completion}

theorem tooOld_mono {ttl earlier later : Nat} (h : earlier ≤ later) (completion : Completion)
    (hold : tooOld ttl earlier completion = true) : tooOld ttl later completion = true := by
  simp only [tooOld, decide_eq_true_eq] at hold ⊢
  omega

theorem recent_sublist {maxEntries ttl earlier later : Nat} (h : earlier ≤ later) :
    (recent maxEntries ttl later history).Sublist (recent maxEntries ttl earlier history) := by
  unfold recent
  split
  · exact Sublist.refl _
  · rw [← filter_window (tooOld_mono h)]
    exact filter_sublist

theorem staleFirst_of_sorted (ttl now : Nat)
    (h : history.Pairwise fun earlier later => earlier.2.completedAt ≤ later.2.completedAt) :
    StaleFirst (tooOld ttl now) history := by
  refine h.imp fun hle hold => ?_
  simp only [tooOld, decide_eq_true_eq] at hold ⊢
  omega

@[simp] theorem pruneExpired_maxEntries : (cache.pruneExpired now).maxEntries = cache.maxEntries := by
  unfold pruneExpired
  split <;> rfl

@[simp] theorem pruneExpired_ttl : (cache.pruneExpired now).ttl = cache.ttl := by
  unfold pruneExpired
  split <;> rfl

variable {response : CommandResponse}

@[simp] theorem insert_maxEntries :
    (cache.insert now requestId response).maxEntries = cache.maxEntries := by
  unfold insert
  split
  · rfl
  · exact pruneExpired_maxEntries

@[simp] theorem insert_ttl : (cache.insert now requestId response).ttl = cache.ttl := by
  unfold insert
  split
  · rfl
  · exact pruneExpired_ttl

theorem tracks_new (maxEntries ttl clock : Nat) : Tracks (new maxEntries ttl) clock [] where
  sorted := .nil
  past := by simp
  represents _ := ⟨clock, le_rfl, by simp [new, window, rtake], by simp [new, window, rtake]⟩

section

variable (hnow : clock ≤ now)
include hnow

theorem Tracks.later (h : Tracks cache clock history) :
    Tracks cache now history where
  sorted := h.sorted
  past completion hmem := (h.past completion hmem).trans hnow
  represents httl := by
    obtain ⟨pruned, hle, hrep⟩ := h.represents httl
    exact ⟨pruned, hle.trans hnow, hrep⟩

theorem Tracks.represents_prune (h : Tracks cache clock history) :
    Represents (cache.pruneExpired now).order (cache.pruneExpired now).entries
      (recent cache.maxEntries cache.ttl now history) := by
  unfold pruneExpired recent
  split
  · exact ⟨rfl, .nil⟩
  rename_i httl
  obtain ⟨pruned, hle, hrep⟩ := h.represents httl
  have hpruned : (window (tooOld cache.ttl pruned) cache.maxEntries history).dropWhile
      (tooOld cache.ttl now) = window (tooOld cache.ttl now) cache.maxEntries history := by
    rw [((staleFirst_of_sorted cache.ttl now h.sorted).sublist window_sublist).dropWhile_eq,
      filter_window (tooOld_mono (hle.trans hnow))]
  rw [← hpruned]
  exact hrep.dropExpired

theorem Tracks.prune (h : Tracks cache clock history) :
    Tracks (cache.pruneExpired now) now history where
  sorted := h.sorted
  past completion hmem := (h.past completion hmem).trans hnow
  represents httl := by
    have hrep := h.represents_prune hnow
    rw [pruneExpired_ttl] at httl ⊢
    rw [pruneExpired_maxEntries]
    rw [recent, if_neg httl] at hrep
    exact ⟨now, le_rfl, hrep⟩

/-- A lookup finds exactly what is recent. -/
theorem Tracks.get_eq (h : Tracks cache clock history) (requestId : String) :
    (cache.get now requestId).1 =
      ((recent cache.maxEntries cache.ttl now history).dlookup requestId).map (·.response) := by
  simp only [get, (h.represents_prune hnow).lookup_eq]

/-- An insertion of an id that is not remembered extends the history. -/
theorem Tracks.insert (h : Tracks cache clock history)
    (hnew : requestId ∉ (recent cache.maxEntries cache.ttl now history).keys) :
    Tracks (cache.insert now requestId response) now
      (history ++ [⟨requestId, response, now⟩]) where
  sorted := by
    refine pairwise_append.mpr ⟨h.sorted, pairwise_singleton _ _, ?_⟩
    intro earlier hearlier later hlater
    obtain rfl := mem_singleton.mp hlater
    exact (h.past earlier hearlier).trans hnow
  past completion hmem := by
    rcases mem_append.mp hmem with hmem | hmem
    · exact (h.past completion hmem).trans hnow
    · obtain rfl := mem_singleton.mp hmem
      exact le_rfl
  represents httl := by
    rw [insert_ttl] at httl
    refine ⟨now, le_rfl, ?_⟩
    rw [insert_maxEntries, insert_ttl]
    unfold CompletedCommandCache.insert
    split
    · rename_i hmax
      obtain ⟨pruned, -, hrep⟩ := h.represents httl
      simpa [hmax, window, rtake] using hrep
    · rename_i hmax
      have hrep := h.represents_prune hnow
      have hlookup : ((cache.pruneExpired now).entries.lookup requestId).isSome = false := by
        rw [hrep.lookup_eq, Option.isSome_eq_false_iff, Option.isNone_iff_eq_none,
          dlookup_eq_none]
        exact hnew
      have hstale := staleFirst_of_sorted cache.ttl now h.sorted
      have hfresh : tooOld cache.ttl now ⟨requestId, response, now⟩ = false := by
        simp [tooOld]
      rw [hstale.window_append hfresh hmax]
      rw [recent, if_neg httl] at hrep hnew
      simp only [hlookup, Bool.false_eq_true, ite_false, pruneExpired_maxEntries]
      exact (hrep.insert hnew).dropOldest

end

end Tracks

end CompletedCommandCache

end MessagingBench.Worker
