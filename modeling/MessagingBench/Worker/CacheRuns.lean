import MessagingBench.Core.Run
import MessagingBench.Worker.Cache

/-!
# Runs of the cache of completed commands

Whoever inserts a response under an id that the cache still holds renews the entry but not its
place in the order: expired entries behind it are found again, and it is evicted before older
ones. As long as nothing older stands behind a renewed id, neither happens.
-/

namespace MessagingBench.Worker

inductive CacheCall
  | get (now : Nat) (requestId : String)
  | insert (now : Nat) (requestId : String) (response : CommandResponse)

def CacheCall.now : CacheCall → Nat
  | get now _ => now
  | insert now _ _ => now

/-- A cache with the time of the last call and all insertions so far, the latest first. -/
structure CacheRun where
  cache : CompletedCommandCache
  clock : Nat
  inserts : List Completion

namespace CacheRun

open List CompletedCommandCache

def start (maxEntries ttl : Nat) : CacheRun := ⟨.new maxEntries ttl, 0, []⟩

variable (s : CacheRun)

def step : CacheCall → CacheRun
  | .get now requestId => ⟨(s.cache.get now requestId).2, now, s.inserts⟩
  | .insert now requestId response =>
    ⟨s.cache.insert now requestId response, now, ⟨requestId, response, now⟩ :: s.inserts⟩

def latestInsert (requestId : String) : Option CachedCommandResponse :=
  s.inserts.dlookup requestId

/-- The clock does not go back, and an id is only inserted if the cache does not hold it. -/
def Admits (call : CacheCall) : Prop :=
  s.clock ≤ call.now ∧ ∀ now requestId response, call = .insert now requestId response →
    (s.cache.pruneExpired now).entries.lookup requestId = none

/-- The ids that stand behind an id in the order; none if the id is not there. -/
def behind (order : List String) (requestId : String) : List String :=
  (order.dropWhile (· != requestId)).tail

/-- The clock does not go back, and nothing older stands behind an id that is renewed. -/
def KeepsOrder (call : CacheCall) : Prop :=
  s.clock ≤ call.now ∧ ∀ now requestId response, call = .insert now requestId response →
    ∀ later ∈ behind (s.cache.pruneExpired now).order requestId,
      ∀ cached ∈ (s.cache.pruneExpired now).entries.lookup later, now ≤ cached.completedAt

/-- What a lookup finds was inserted within the time to live; whatever an insertion evicts was
inserted no later than what it keeps. -/
def Sound : CacheCall → Prop
  | .get now requestId => ∀ response, (s.cache.get now requestId).1 = some response →
      ∃ latest, s.latestInsert requestId = some latest ∧ now ≤ latest.completedAt + s.cache.ttl
  | .insert now requestId response =>
      ∀ held ∈ ((s.cache.pruneExpired now).entries.insert requestId ⟨response, now⟩).entries,
        held ∉ (s.cache.insert now requestId response).entries.entries →
        ∀ kept ∈ (s.cache.insert now requestId response).entries.entries,
          held.2.completedAt ≤ kept.2.completedAt

variable {s : CacheRun} {call : CacheCall} {now maxEntries ttl : Nat} {requestId : String}
  {response : CommandResponse}

section Bounded

variable {order : List String} {entries : CachedEntries} {cache : CompletedCommandCache}

/-- Every entry has a place in the order. -/
def Covers (order : List String) (entries : CachedEntries) : Prop := ∀ id ∈ entries, id ∈ order

theorem Covers.erase (h : Covers (requestId :: order) entries) :
    Covers order (entries.erase requestId) := by
  intro other hmem
  obtain ⟨hne, hmem⟩ := AList.mem_erase.mp hmem
  exact (mem_cons.mp (h other hmem)).resolve_left hne

theorem Covers.dropExpired (h : Covers order entries) :
    Covers (dropExpired ttl now order entries).1 (dropExpired ttl now order entries).2 ∧
      (dropExpired ttl now order entries).2.entries.length ≤ entries.entries.length := by
  induction order generalizing entries with
  | nil => exact ⟨h, Nat.le_refl _⟩
  | cons id order ih =>
    unfold dropExpired
    split
    · exact ⟨(ih h.erase).1, (ih h.erase).2.trans (kerase_sublist _ _).length_le⟩
    · exact ⟨h, Nat.le_refl _⟩

theorem Covers.dropOldest (h : Covers order entries) :
    Covers (dropOldest maxEntries order entries).1 (dropOldest maxEntries order entries).2 ∧
      (dropOldest maxEntries order entries).2.entries.length ≤ maxEntries := by
  induction order generalizing entries with
  | nil =>
    have hnil : entries.keys = [] :=
      eq_nil_iff_forall_not_mem.mpr fun id hmem => nomatch h id hmem
    have hlength : entries.entries.length = 0 := by
      rw [← length_map, ← length_nil, ← hnil]
      rfl
    exact ⟨h, hlength ▸ Nat.zero_le _⟩
  | cons id order ih =>
    unfold dropOldest
    split
    · exact ih h.erase
    · rename_i hfits
      exact ⟨h, Nat.le_of_not_lt hfits⟩

/-- There are not too many entries, and all of them have a place in the order. -/
structure Bounded (cache : CompletedCommandCache) : Prop where
  covers : Covers cache.order cache.entries
  length_le : cache.entries.entries.length ≤ cache.maxEntries

theorem Bounded.prune (h : Bounded cache) (now : Nat) : Bounded (cache.pruneExpired now) := by
  unfold pruneExpired
  split
  · exact ⟨nofun, Nat.zero_le _⟩
  · exact ⟨h.covers.dropExpired.1, h.covers.dropExpired.2.trans h.length_le⟩

theorem Bounded.insert (h : Bounded cache) : Bounded (cache.insert now requestId response) := by
  unfold CompletedCommandCache.insert
  split
  · exact h
  have hcovers : Covers (if ((cache.pruneExpired now).entries.lookup requestId).isSome then
      (cache.pruneExpired now).order else (cache.pruneExpired now).order ++ [requestId])
      ((cache.pruneExpired now).entries.insert requestId ⟨response, now⟩) := by
    intro id hmem
    rcases (AList.mem_insert _).mp hmem with rfl | hmem
    · split
      · rename_i hheld
        exact (h.prune now).covers _ (AList.lookup_isSome.mp hheld)
      · exact mem_append_right _ (mem_singleton_self _)
    · split
      · exact (h.prune now).covers _ hmem
      · exact mem_append_left _ ((h.prune now).covers _ hmem)
  exact ⟨hcovers.dropOldest.1, hcovers.dropOldest.2⟩

/-- However calls and clock go on, there are never too many entries. -/
theorem bounded_execute {schedule : List CacheCall} (h : Bounded s.cache) :
    Bounded (execute step s schedule).cache := by
  induction schedule generalizing s with
  | nil => exact h
  | cons call schedule ih =>
    cases call with
    | get now requestId => exact ih (h.prune now)
    | insert now requestId response => exact ih h.insert

theorem execute_settings (s : CacheRun) (schedule : List CacheCall) :
    (execute step s schedule).cache.ttl = s.cache.ttl ∧
      (execute step s schedule).cache.maxEntries = s.cache.maxEntries := by
  induction schedule generalizing s with
  | nil => exact ⟨rfl, rfl⟩
  | cons call schedule ih =>
    cases call <;> simp [ih, CacheRun.step, CompletedCommandCache.get]

end Bounded

/-- Without renewals the cache remembers the insertions so far. -/
theorem tracks_step (s : CacheRun) (call : CacheCall) :
    s.cache.Tracks s.clock s.inserts.reverse → s.Admits call →
      (s.step call).cache.Tracks (s.step call).clock (s.step call).inserts.reverse := by
  intro h hadmits
  cases call with
  | get now requestId => exact h.prune hadmits.1
  | insert now requestId response =>
    have hnow : s.clock ≤ now := hadmits.1
    have hnew := hadmits.2 now requestId response rfl
    rw [(h.represents_prune hnow).lookup_eq, dlookup_eq_none] at hnew
    simpa [CacheRun.step] using h.insert hnow hnew

section Ordered

/-- The order is that of the insertions, and every entry is the latest one of its id. -/
structure Ordered (s : CacheRun) (live : List Completion) : Prop where
  represents : Represents s.cache.order s.cache.entries live
  sorted : live.Pairwise fun earlier later => earlier.2.completedAt ≤ later.2.completedAt
  past : ∀ completion ∈ live, completion.2.completedAt ≤ s.clock
  latest : ∀ completion ∈ live, s.latestInsert completion.1 = some completion.2
  ttl : s.cache.ttl ≠ 0
  max : s.cache.maxEntries ≠ 0

variable {live : List Completion} {entries : CachedEntries} {order : List String}

theorem Ordered.sublist (h : Ordered s live) {live' : List Completion} (hsub : live'.Sublist live)
    (hrep : Represents order entries live') :
    Ordered { s with cache := { s.cache with order := order, entries := entries } } live' :=
  ⟨hrep, h.sorted.sublist hsub, fun _ hmem => h.past _ (hsub.subset hmem),
    fun _ hmem => h.latest _ (hsub.subset hmem), h.ttl, h.max⟩

/-- Pruning leaves the entries that have not expired. -/
theorem Ordered.prune (h : Ordered s live) (now : Nat) :
    Ordered { s with cache := s.cache.pruneExpired now }
      (live.filter (!tooOld s.cache.ttl now ·)) := by
  have hrep : Represents (dropExpired s.cache.ttl now s.cache.order s.cache.entries).1 _ _ :=
    h.represents.dropExpired
  rw [(staleFirst_of_sorted s.cache.ttl now h.sorted).dropWhile_eq] at hrep
  unfold pruneExpired
  rw [if_neg h.ttl]
  exact h.sublist filter_sublist hrep

theorem Ordered.get_sound (h : Ordered s live) : s.Sound (.get now requestId) := by
  intro response hget
  have hpruned := h.prune now
  obtain ⟨cached, hfound, -⟩ := Option.map_eq_some_iff.mp hget
  rw [hpruned.represents.lookup_eq] at hfound
  have hmem := of_mem_dlookup hfound
  refine ⟨cached, hpruned.latest _ hmem, ?_⟩
  have hfresh := (mem_filter.mp hmem).2
  simp only [tooOld, Bool.not_eq_true', decide_eq_false_iff_not] at hfresh
  omega

/-- The cache and its insertions after a response was put under an id, before any eviction. -/
def put (s : CacheRun) (now : Nat) (requestId : String) (response : CommandResponse) : CacheRun :=
  { cache := { s.cache with
      order := if (s.cache.entries.lookup requestId).isSome then s.cache.order
        else s.cache.order ++ [requestId]
      entries := s.cache.entries.insert requestId ⟨response, now⟩ }
    clock := now
    inserts := ⟨requestId, response, now⟩ :: s.inserts }

variable {before after : List Completion} {old : CachedCommandResponse}

/-- A new entry has its place between older and newer ones. -/
theorem Ordered.put (h : Ordered s live) (hnow : s.clock ≤ now)
    (hsub : (before ++ after).Sublist live) (hother : requestId ∉ (before ++ after).keys)
    (hafter : ∀ later ∈ after, now ≤ later.2.completedAt)
    (hrep : Represents (s.put now requestId response).cache.order
      (s.put now requestId response).cache.entries
      (before ++ ⟨requestId, response, now⟩ :: after)) :
    Ordered (s.put now requestId response) (before ++ ⟨requestId, response, now⟩ :: after) := by
  obtain ⟨hbefore, hbehind, hcross⟩ := pairwise_append.mp (h.sorted.sublist hsub)
  have hpast {completion : Completion} (hmem : completion ∈ before ++ after) :
      completion.2.completedAt ≤ now := (h.past _ (hsub.subset hmem)).trans hnow
  have hcases {completion : Completion}
      (hmem : completion ∈ before ++ ⟨requestId, response, now⟩ :: after) :
      completion = ⟨requestId, response, now⟩ ∨ completion ∈ before ++ after := by
    simpa [or_left_comm] using hmem
  refine ⟨hrep, pairwise_append.mpr ⟨hbefore, pairwise_cons.mpr ⟨hafter, hbehind⟩,
    fun earlier hearlier later hlater => ?_⟩, fun completion hmem => ?_, fun completion hmem => ?_,
    h.ttl, h.max⟩
  · rcases mem_cons.mp hlater with rfl | hlater
    · exact hpast (mem_append_left _ hearlier)
    · exact hcross earlier hearlier later hlater
  · rcases hcases hmem with rfl | hmem
    · exact Nat.le_refl now
    · exact hpast hmem
  · rcases hcases hmem with rfl | hmem
    · exact dlookup_cons_eq _ _ _
    · refine (dlookup_cons_ne _ _ fun heq => ?_).trans (h.latest _ (hsub.subset hmem))
      exact hother (heq.subst (motive := (· ∈ (before ++ after).keys)) (mem_keys_of_mem hmem))

theorem represents_renew {cached : CachedCommandResponse}
    (h : Represents order entries (before ++ ⟨requestId, old⟩ :: after)) :
    requestId ∉ (before ++ after).keys ∧ Represents order (entries.insert requestId cached)
      (before ++ ⟨requestId, cached⟩ :: after) := by
  have hnot := (nodupKeys_cons.mp (nodupKeys_middle.mp h.nodupKeys)).1
  have hkerase : kerase requestId (before ++ ⟨requestId, old⟩ :: after) = before ++ after := by
    rw [kerase_append_right fun hmem => hnot (by simpa [keys] using Or.inl hmem)]
    exact congrArg (before ++ ·) (kerase_cons_eq rfl)
  refine ⟨hnot, ?_, ?_⟩
  · rw [h.order_eq]
    simp [keys]
  · have hperm := h.perm.kerase entries.nodupKeys (a := requestId)
    rw [hkerase] at hperm
    exact (hperm.cons _).trans perm_middle.symm

theorem behind_append {before after : List String} (h : requestId ∉ before) :
    behind (before ++ requestId :: after) requestId = after := by
  unfold behind
  rw [dropWhile_append_of_pos]
  · simp
  · intro id hmem
    exact bne_iff_ne.mpr fun heq => h (heq ▸ hmem)

theorem Ordered.exists_put (h : Ordered s live) (hnow : s.clock ≤ now)
    (hbehind : ∀ later ∈ behind s.cache.order requestId,
      ∀ cached ∈ s.cache.entries.lookup later, now ≤ cached.completedAt) :
    ∃ inserted, Ordered (s.put now requestId response) inserted := by
  have hlookup := h.represents.lookup_eq requestId
  by_cases hheld : requestId ∈ live.keys
  · obtain ⟨old, hold⟩ := exists_of_mem_keys hheld
    obtain ⟨before, after, rfl⟩ := append_of_mem hold
    have hsome : (s.cache.entries.lookup requestId).isSome = true := by
      rw [hlookup, dlookup_isSome]
      exact hheld
    obtain ⟨hother, hrep⟩ := represents_renew h.represents
    refine ⟨_, h.put hnow ((sublist_cons_self _ _).append_left before) hother ?_ ?_⟩
    · intro later hmem
      refine hbehind later.1 ?_ later.2 ?_
      · rw [h.represents.order_eq]
        simp only [keys, map_append, map_cons]
        rw [behind_append fun hmem => hother (by simpa [keys] using Or.inl hmem)]
        exact mem_map_of_mem hmem
      · rw [h.represents.lookup_eq]
        exact mem_dlookup h.represents.nodupKeys
          (mem_append_right _ (mem_cons_of_mem _ hmem))
    · simp only [CacheRun.put, hsome]
      exact hrep
  · have hnone : (s.cache.entries.lookup requestId).isSome = false := by
      rw [hlookup, dlookup_eq_none.mpr hheld]
      rfl
    refine ⟨live ++ [⟨requestId, response, now⟩], h.put hnow ?_ ?_ (by simp) ?_⟩
    · rw [append_nil]
    · rwa [append_nil]
    · simp only [CacheRun.put, hnone]
      exact h.represents.insert hheld

/-- Of the entries with the new one an insertion leaves the last ones. -/
theorem Ordered.insert (h : Ordered s live)
    (hkeeps : s.KeepsOrder (.insert now requestId response)) :
    ∃ inserted size, Ordered (CacheRun.put { s with cache := s.cache.pruneExpired now } now
        requestId response) inserted ∧
      Ordered (s.step (.insert now requestId response)) (inserted.rtake size) := by
  have hnow : s.clock ≤ now := hkeeps.1
  obtain ⟨inserted, hinserted⟩ := (h.prune now).exists_put hnow
    (hkeeps.2 now requestId response rfl)
  refine ⟨inserted, (s.cache.pruneExpired now).maxEntries, hinserted, ?_⟩
  simp only [CacheRun.step, CompletedCommandCache.insert, h.max, if_false]
  exact hinserted.sublist (rtake_sublist _ _) hinserted.represents.dropOldest

/-- An eviction takes the oldest entries away, and the order is that of the insertions. -/
theorem Ordered.insert_sound (h : Ordered s live)
    (hkeeps : s.KeepsOrder (.insert now requestId response)) :
    s.Sound (.insert now requestId response) := by
  intro held hheld hdropped kept hkept
  obtain ⟨inserted, size, hinserted, hafter⟩ := h.insert hkeeps
  have hsorted := hinserted.sorted
  replace hheld := hinserted.represents.perm.mem_iff.mp hheld
  replace hdropped := fun hmem => hdropped (hafter.represents.perm.mem_iff.mpr hmem)
  replace hkept := hafter.represents.perm.mem_iff.mp hkept
  rw [← take_append_drop (inserted.length - size) inserted] at hheld hsorted
  exact (pairwise_append.mp hsorted).2.2 held
    ((mem_append.mp hheld).resolve_right hdropped) kept hkept

theorem Ordered.step (s : CacheRun) (call : CacheCall) :
    (∃ live, Ordered s live) → s.KeepsOrder call → ∃ live, Ordered (s.step call) live := by
  rintro ⟨live, h⟩ hkeeps
  cases call with
  | get now requestId =>
    have hpruned := h.prune now
    exact ⟨_, { hpruned with past := fun _ hmem => (hpruned.past _ hmem).trans hkeeps.1 }⟩
  | insert now requestId response =>
    obtain ⟨inserted, size, -, hafter⟩ := h.insert hkeeps
    exact ⟨_, hafter⟩

end Ordered

/-- Whatever is called, there are never too many entries. In a run in which nothing older ever
stands behind a renewed id, every further such call is sound. -/
theorem run_sound (hmax : 0 < maxEntries) (httl : 0 < ttl) (schedule : List CacheCall) :
    (execute step (start maxEntries ttl) schedule).cache.entries.entries.length ≤ maxEntries ∧
      (Guarded step KeepsOrder (start maxEntries ttl) schedule →
        ∀ call, (execute step (start maxEntries ttl) schedule).KeepsOrder call →
          (execute step (start maxEntries ttl) schedule).Sound call) := by
  refine ⟨?_, fun hrun call hkeeps => ?_⟩
  · have hbounded : Bounded (execute step (start maxEntries ttl) schedule).cache :=
      bounded_execute ⟨nofun, Nat.zero_le _⟩
    exact hbounded.length_le.trans (Nat.le_of_eq (execute_settings _ schedule).2)
  · have hstart : ∃ live, Ordered (start maxEntries ttl) live :=
      ⟨[], ⟨rfl, .nil⟩, .nil, nofun, nofun, Nat.ne_of_gt httl, Nat.ne_of_gt hmax⟩
    obtain ⟨live, hordered⟩ := hrun.invariant Ordered.step hstart
    cases call with
    | get now requestId => exact hordered.get_sound
    | insert now requestId response => exact hordered.insert_sound hkeeps

/-- The last id is renewed, and the first one is evicted when a third one comes. -/
def renewals : List CacheCall :=
  [.insert 0 "a" (.ok "1"), .insert 1 "b" (.ok "2"), .insert 4 "b" (.ok "3"),
    .insert 5 "c" (.ok "4")]

theorem run_sound_renewals : (execute step (start 2 9) renewals).Sound (.get 13 "b") := by
  have hrun : Guarded step KeepsOrder (start 2 9) renewals := by
    refine ⟨⟨by decide, ?_⟩, ⟨by decide, ?_⟩, ⟨by decide, ?_⟩, ⟨by decide, ?_⟩, trivial⟩ <;>
      · rintro _ _ _ ⟨⟩
        decide
  exact (run_sound (by decide) (by decide) renewals).2 hrun _ ⟨by decide, by simp⟩

/-- Without renewals a lookup finds exactly what was inserted last and has not expired. -/
theorem run_exact {schedule : List CacheCall}
    (hrun : Guarded step Admits (start maxEntries ttl) schedule)
    (hnow : (execute step (start maxEntries ttl) schedule).clock ≤ now) :
    ((execute step (start maxEntries ttl) schedule).cache.get now requestId).1 =
      ((recent maxEntries ttl now (execute step (start maxEntries ttl) schedule).inserts.reverse
        ).dlookup requestId).map (·.response) := by
  have htracks := hrun.invariant tracks_step (tracks_new _ _ _)
  have hsettings := execute_settings (start maxEntries ttl) schedule
  rw [htracks.get_eq hnow, hsettings.1, hsettings.2]
  rfl

/-- One entry is evicted, and another one expires. -/
def departures : List CacheCall :=
  [.insert 0 "a" (.ok "1"), .insert 1 "b" (.ok "2"), .insert 2 "c" (.ok "3"), .get 3 "a",
    .insert 11 "d" (.ok "4")]

theorem run_exact_departures : ["a", "b", "c", "d"].map (fun id =>
    ((execute step (start 2 9) departures).cache.get 11 id).1) =
      [none, none, some (.ok "3"), some (.ok "4")] := by
  have hrun : Guarded step Admits (start 2 9) departures := by
    refine ⟨⟨by decide, ?_⟩, ⟨by decide, ?_⟩, ⟨by decide, ?_⟩, ⟨by decide, by simp⟩,
      ⟨by decide, ?_⟩, trivial⟩ <;>
      · rintro _ _ _ ⟨⟩
        decide
  have hfound (id : String) : ((execute step (start 2 9) departures).cache.get 11 id).1 = _ :=
    run_exact hrun (by decide)
  simp only [map_cons, hfound]
  decide

/-- An entry behind a renewed one is found after it has expired, and the renewed entry is evicted
before an older one. -/
theorem renewed_unsound :
    ¬(execute step (start 2 10) [.insert 0 "a" (.ok "1"), .insert 1 "b" (.ok "2"),
      .insert 5 "a" (.ok "3")]).Sound (.get 12 "b") ∧
    ¬(execute step (start 2 10) [.insert 0 "a" (.ok "1"), .insert 1 "b" (.ok "2"),
      .insert 5 "a" (.ok "3")]).Sound (.insert 6 "c" (.ok "4")) := by
  constructor
  · intro h
    obtain ⟨latest, hlatest, hle⟩ := h (.ok "2") (by decide)
    cases hlatest
    revert hle
    decide
  · intro h
    have hle := h ⟨"a", .ok "3", 5⟩ (by decide) (by decide) ⟨"b", .ok "2", 1⟩ (by decide)
    revert hle
    decide

end CacheRun

end MessagingBench.Worker
