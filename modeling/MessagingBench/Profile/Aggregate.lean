import Mathlib.Data.List.Count
import Mathlib.Data.List.Dedup
import Mathlib.Data.List.Perm.Basic
import Mathlib.Data.List.Sort
import MessagingBench.Profile.Journal

/-!
# Aggregating profile events

`aggregate_csv` of the OpenMLS runner: failures in the journal are copied into the profile
files, files of clients that are not profiled are deleted, and the sorted events of the
others replace `events.csv` in one step. Failures of one worker at one time are taken for
one. Every access to a file may fail.
-/

namespace MessagingBench.Profile

open List

variable {δ : Type}

section Rows

structure LayoutClient where
  clientId : String
  physicalWorkerId : String
  profileEnabled : Bool
  deriving DecidableEq, Repr

structure WorkerLayout where
  clients : List LayoutClient
  deriving DecidableEq, Repr

/-- A row; the columns that are copied from the event without being looked at are in the event,
those that are copied from the layout are left out, except for the physical worker. -/
structure Row (δ : Type) where
  clientId : String
  workerId : String
  event : ProfileEvent δ
  deriving DecidableEq, Repr

def Row.isFailure (row : Row δ) : Bool := row.event.runnerEventKind == some "worker_failure"

/-- The span names seen so far in a file, newest first. -/
abbrev SpanMetadata : Type := List (Nat × (String × Option String))

/-- A heap budget failure takes over the names of its span; other events leave theirs. -/
def resolveSpan (metadata : SpanMetadata) (event : ProfileEvent δ) :
    ProfileEvent δ × SpanMetadata :=
  if event.failureClass = some "app_heap_budget_exceeded" then
    match event.spanId.bind fun spanId => lookup spanId metadata with
    | some (spanName, parentOperation) =>
      ({ event with spanName := some spanName, parentOperation := parentOperation }, metadata)
    | none => (event, metadata)
  else
    match event.spanId, event.spanName with
    | some spanId, some spanName => (event, (spanId, (spanName, event.parentOperation)) :: metadata)
    | _, _ => (event, metadata)

def buildRows (clientId workerId : String) : SpanMetadata → List (ProfileEvent δ) → List (Row δ)
  | _, [] => []
  | metadata, event :: events =>
    let resolved := resolveSpan metadata event
    ⟨clientId, workerId, resolved.1⟩ :: buildRows clientId workerId resolved.2 events

/-- Rows are ordered by time, and failures come last at each time. -/
def Row.before (a b : Row δ) : Prop :=
  a.event.tsUnixNs < b.event.tsUnixNs ∨
    a.event.tsUnixNs = b.event.tsUnixNs ∧ (a.isFailure = true → b.isFailure = true)

instance : DecidableRel (@Row.before δ) := fun _ _ =>
  inferInstanceAs (Decidable (_ ∨ _ ∧ (_ → _)))

end Rows

section Aggregation

/-- The accesses to files that fail. -/
structure Faults where
  openJournal : Bool
  append : String → Bool
  create : Bool
  read : String → Bool
  remove : String → Bool
  write : Bool
  rename : Bool

structure RunDirectory (δ : Type) where
  journal : Option (JsonLines (RunnerEvent δ))
  files : ProfileFiles δ
  /-- The contents of `worker_layout.json`, if it can be read. -/
  workerLayout : Option WorkerLayout
  eventsCsv : Option (List (Row δ))

def materializeRunnerProfileEvents (faults : Faults) (dir : RunDirectory δ) :
    Except String Unit × ProfileFiles δ :=
  match dir.journal with
  | none => (.ok (), dir.files)
  | some journal =>
    if faults.openJournal then (.error "Failed to open", dir.files)
    else materializeLines faults.append journal.lines dir.files

variable (layout : Option WorkerLayout)

/-- The clients whose events are aggregated. -/
def profileEnabledIds (workerIds : List String) : List String :=
  match layout with
  | some layout => (layout.clients.filter (·.profileEnabled)).map (·.clientId)
  | none => workerIds

/-- The ids that are not yet in the list are appended to it. -/
def pushUnseen (ids : List String) (id : String) : List String :=
  if ids.contains id then ids else ids ++ [id]

def aggregateWorkerIds (workerIds : List String) : List String :=
  let fromLayout :=
    match layout with
    | some layout => (layout.clients.filter (·.profileEnabled)).map (·.clientId)
    | none => []
  (fromLayout ++ workerIds).foldl pushUnseen []

/-- The physical worker of a client; an empty name counts as none. -/
def physicalWorkerId (clientId : String) : String :=
  match layout.bind fun layout => layout.clients.reverse.find? (·.clientId == clientId) with
  | some client => if client.physicalWorkerId = "" then clientId else client.physicalWorkerId
  | none => clientId

/-- The loop over the clients. -/
def collectRows (faults : Faults) (layout : Option WorkerLayout) (enabled : List String) :
    List String → ProfileFiles δ → Except String (List (Row δ)) × ProfileFiles δ
  | [], files => (.ok [], files)
  | id :: ids, files =>
    if enabled.contains id then
      match files id with
      | none => collectRows faults layout enabled ids files
      | some file =>
        if faults.read id then (.error "Failed to open", files)
        else
          match readEvents file.lines with
          | .error text => (.error text, files)
          | .ok events =>
            match collectRows faults layout enabled ids files with
            | (.error text, files') => (.error text, files')
            | (.ok rows, files') =>
              (.ok (buildRows id (physicalWorkerId layout id) [] events ++ rows), files')
    else
      collectRows faults layout enabled ids
        (if faults.remove id then files else Function.update files id none)

/-- `aggregate_csv`; the temporary file that may be left behind is not part of the model. -/
def aggregateCsv (faults : Faults) (workerIds : List String)
    (providedLayout : Option WorkerLayout) (dir : RunDirectory δ) :
    Except String Nat × RunDirectory δ :=
  match materializeRunnerProfileEvents faults dir with
  | (.error text, files) => (.error text, { dir with files := files })
  | (.ok (), files) =>
    if faults.create then (.error "Failed to create", { dir with files := files })
    else
      let layout := providedLayout.or dir.workerLayout
      match collectRows faults layout (profileEnabledIds layout workerIds)
          (aggregateWorkerIds layout workerIds) files with
      | (.error text, files') => (.error text, { dir with files := files' })
      | (.ok rows, files') =>
        if faults.write then (.error "Failed to write", { dir with files := files' })
        else if faults.rename then (.error "Failed to rename", { dir with files := files' })
        else (.ok rows.length, { dir with
          files := files'
          eventsCsv := some (rows.insertionSort Row.before) })

end Aggregation

section Collecting

/-- The event without the names that it may take over from its span. -/
def ProfileEvent.erased (event : ProfileEvent δ) : ProfileEvent δ :=
  { event with spanName := none, parentOperation := none }

/-- Where a row comes from. -/
def Row.source (row : Row δ) : String × ProfileEvent δ := (row.clientId, row.event.erased)

theorem erased_resolveSpan (metadata : SpanMetadata) (event : ProfileEvent δ) :
    (resolveSpan metadata event).1.erased = event.erased := by
  unfold resolveSpan
  split
  · split <;> rfl
  · split <;> rfl

theorem map_source_buildRows (clientId workerId : String) (metadata : SpanMetadata)
    (events : List (ProfileEvent δ)) :
    (buildRows clientId workerId metadata events).map Row.source =
      events.map fun event => (clientId, event.erased) := by
  induction events generalizing metadata with
  | nil => rfl
  | cons event events ih =>
    simp only [buildRows, map_cons, ih, Row.source, erased_resolveSpan]

def eventsOn {α : Type} (lines : List (Line α)) : List α :=
  lines.filterMap fun line =>
    match line with
    | .event value => some value
    | _ => none

variable {α : Type}

theorem readEvents_ok {lines : List (Line α)} {events : List α}
    (h : readEvents lines = .ok events) : events = eventsOn lines := by
  induction lines generalizing events with
  | nil =>
    cases h
    rfl
  | cons line lines ih =>
    cases line with
    | blank => exact ih h
    | malformed => cases h
    | event value =>
      rw [readEvents] at h
      cases hrest : readEvents lines with
      | error text =>
        rw [hrest] at h
        cases h
      | ok rest =>
        rw [hrest] at h
        cases h
        rw [ih hrest]
        rfl

theorem malformed_not_mem_of_readEvents {lines : List (Line α)} {events : List α}
    (h : readEvents lines = .ok events) : Line.malformed ∉ lines := by
  induction lines generalizing events with
  | nil => exact not_mem_nil
  | cons line lines ih =>
    cases line with
    | blank => exact fun hmem => ih h (mem_of_ne_of_mem (by simp) hmem)
    | malformed => cases h
    | event value =>
      rw [readEvents] at h
      cases hrest : readEvents lines with
      | error text =>
        rw [hrest] at h
        cases h
      | ok rest => exact fun hmem => ih hrest (mem_of_ne_of_mem (by simp) hmem)

theorem recorded_eq_any (files : ProfileFiles δ) (key : Nat × String) :
    files.recorded key = (eventsOn (files.lines key.2)).any (·.copies key.1 key.2) := by
  unfold ProfileFiles.recorded eventsOn
  induction files.lines key.2 with
  | nil => rfl
  | cons line lines ih => cases line <;> simp [ih]

/-- The rows of the enabled ones among some clients. -/
def rowsOf (layout : Option WorkerLayout) (enabled ids : List String) (files : ProfileFiles δ) :
    List (Row δ) :=
  (ids.filter (enabled.contains ·)).flatMap fun id =>
    buildRows id (physicalWorkerId layout id) [] (eventsOn (files.lines id))

/-- What the loop over the clients collects, if it returns: the files of enabled clients can be
read and stay as they are. -/
theorem collectRows_ok {faults : Faults} {layout : Option WorkerLayout}
    {enabled ids : List String} {files files' : ProfileFiles δ} {rows : List (Row δ)}
    (h : collectRows faults layout enabled ids files = (.ok rows, files')) :
    rows = rowsOf layout enabled ids files ∧
      (∀ id ∈ ids, enabled.contains id = true →
        readEvents (files.lines id) = .ok (eventsOn (files.lines id))) ∧
      ∀ id, enabled.contains id = true → files' id = files id := by
  induction ids generalizing files rows with
  | nil =>
    cases h
    exact ⟨rfl, by simp, fun _ _ => rfl⟩
  | cons id ids ih =>
    rw [collectRows] at h
    by_cases hid : enabled.contains id = true
    · rw [if_pos hid] at h
      have hrows : rowsOf layout enabled (id :: ids) files =
          buildRows id (physicalWorkerId layout id) [] (eventsOn (files.lines id)) ++
            rowsOf layout enabled ids files := by
        rw [rowsOf, filter_cons, if_pos hid, flatMap_cons]
        rfl
      cases hfile : files id with
      | none =>
        rw [hfile] at h
        obtain ⟨rfl, hread, hkeep⟩ := ih h
        have hlines : files.lines id = [] := by simp [ProfileFiles.lines, hfile]
        refine ⟨by rw [hrows, hlines]; rfl, fun other hother hen => ?_, hkeep⟩
        rcases mem_cons.mp hother with rfl | hother
        · rw [hlines]
          rfl
        · exact hread other hother hen
      | some file =>
        have hlines : files.lines id = file.lines := by simp [ProfileFiles.lines, hfile]
        rw [hfile] at h
        simp only at h
        split at h
        · cases h
        split at h
        · cases h
        rename_i events hevents
        split at h
        · cases h
        rename_i rows' files'' hrest
        cases h
        obtain ⟨rfl, hread, hkeep⟩ := ih hrest
        rw [← hlines] at hevents
        have heq := readEvents_ok hevents
        refine ⟨by rw [hrows, heq], fun other hother hen => ?_, hkeep⟩
        rcases mem_cons.mp hother with rfl | hother
        · rw [hevents, heq]
        · exact hread other hother hen
    · rw [if_neg hid] at h
      have hsame {other : String} (hen : enabled.contains other = true) :
          (if faults.remove id then files else Function.update files id none) other =
            files other := by
        have hne : other ≠ id := by
          rintro rfl
          exact hid hen
        split
        · rfl
        · exact Function.update_of_ne hne _ _
      have hlines {other : String} (hen : enabled.contains other = true) :
          ProfileFiles.lines (if faults.remove id then files else Function.update files id none)
            other = files.lines other := by
        unfold ProfileFiles.lines
        rw [hsame hen]
      obtain ⟨rfl, hread, hkeep⟩ := ih h
      refine ⟨?_, fun other hother hen => ?_, fun other hen => (hkeep other hen).trans (hsame hen)⟩
      · have hskip : (id :: ids).filter (enabled.contains ·) = ids.filter (enabled.contains ·) := by
          rw [filter_cons, if_neg (by simpa using hid)]
        unfold rowsOf
        rw [hskip]
        refine flatMap_congr fun other hother => ?_
        rw [hlines (mem_filter.mp hother).2]
      · rcases mem_cons.mp hother with rfl | hother
        · exact absurd hen hid
        · have hok := hread other hother hen
          rwa [hlines hen] at hok

end Collecting

section Clients

theorem mem_foldl_pushUnseen {ids seen : List String} {id : String} :
    id ∈ ids.foldl pushUnseen seen ↔ id ∈ seen ∨ id ∈ ids := by
  induction ids generalizing seen with
  | nil => simp
  | cons first ids ih =>
    rw [foldl_cons, ih, pushUnseen]
    split
    · rename_i hcontains
      have hmem : id = first → id ∈ seen := by
        rintro rfl
        simpa using hcontains
      rw [mem_cons, ← or_assoc, or_iff_left_of_imp hmem]
    · simp only [mem_append, mem_cons, not_mem_nil, false_or, or_assoc]

theorem nodup_foldl_pushUnseen {ids seen : List String} (h : seen.Nodup) :
    (ids.foldl pushUnseen seen).Nodup := by
  induction ids generalizing seen with
  | nil => exact h
  | cons first ids ih =>
    refine ih ?_
    unfold pushUnseen
    split
    · exact h
    · rename_i hcontains
      have hfresh : first ∉ seen := by simpa using hcontains
      exact concat_eq_append ▸ h.concat hfresh

/-- The enabled clients that are gone through are all enabled clients, each once. -/
theorem aggregated_perm {layout : Option WorkerLayout} {workerIds : List String} :
    ((aggregateWorkerIds layout workerIds).filter
      ((profileEnabledIds layout workerIds).contains ·)).Perm
        (profileEnabledIds layout workerIds).dedup := by
  refine (perm_ext_iff_of_nodup ((nodup_foldl_pushUnseen nodup_nil).filter _)
    (nodup_dedup _)).mpr fun id => ?_
  have hmem (hid : id ∈ profileEnabledIds layout workerIds) :
      id ∈ aggregateWorkerIds layout workerIds := by
    refine mem_foldl_pushUnseen.mpr (.inr ?_)
    cases layout with
    | none => exact hid
    | some layout => exact mem_append_left _ hid
  simp only [mem_filter, contains_iff_mem, mem_dedup]
  exact ⟨fun h => h.2, fun h => ⟨hmem h, h⟩⟩

/-- Going through different keys finds every element with one of these keys once. -/
theorem flatMap_filter_perm {α : Type} {f : α → String} {ids : List String} (h : ids.Nodup)
    (as : List α) :
    (ids.flatMap fun id => as.filter (f · == id)).Perm (as.filter fun a => decide (f a ∈ ids)) := by
  induction as with
  | nil => simp
  | cons a as ih =>
    have hskip {ids : List String} (hids : f a ∉ ids) :
        (ids.flatMap fun id => (a :: as).filter (f · == id)) =
          ids.flatMap fun id => as.filter (f · == id) := by
      refine flatMap_congr fun id hid => ?_
      have hne : (f a == id) = false := beq_eq_false_iff_ne.mpr fun heq => hids (heq ▸ hid)
      rw [filter_cons, hne]
      rfl
    by_cases ha : f a ∈ ids
    · obtain ⟨before, after, rfl⟩ := append_of_mem ha
      have hbefore : f a ∉ before := fun hmem =>
        (nodup_append.mp h).2.2 _ hmem _ mem_cons_self rfl
      have hafter : f a ∉ after := (nodup_cons.mp (nodup_append.mp h).2.1).1
      rw [filter_cons, if_pos (by simp), flatMap_append, flatMap_cons,
        hskip hbefore, hskip hafter, filter_cons, if_pos (by simp), cons_append]
      refine perm_middle.trans (Perm.cons a ?_)
      rw [flatMap_append, flatMap_cons] at ih
      exact ih
    · rw [hskip ha, filter_cons, if_neg (by simpa using ha)]
      exact ih

end Clients

section Faithful

variable {faults : Faults} {workerIds : List String} {providedLayout : Option WorkerLayout}
  {dir dir' : RunDirectory δ} {files : ProfileFiles δ} {id : String}

/-- The failures in the journal. -/
def RunDirectory.journalEvents (dir : RunDirectory δ) : List (RunnerEvent δ) :=
  eventsOn ((dir.journal.map JsonLines.lines).getD [])

/-- The failures in the journal of which there is no copy yet. -/
def RunDirectory.missing (dir : RunDirectory δ) : List (RunnerEvent δ) :=
  dir.journalEvents.filter fun event => !dir.files.recorded event.key

def RunnerEvent.source (event : RunnerEvent δ) : String × ProfileEvent δ :=
  (event.failedWorkerId, event.toProfileEvent.erased)

/-- The enabled clients of an aggregation. -/
def enabledIds (workerIds : List String) (providedLayout : Option WorkerLayout)
    (dir : RunDirectory δ) : List String :=
  profileEnabledIds (providedLayout.or dir.workerLayout) workerIds

/-- The rows of the events on the lines of the files of enabled clients. -/
def lineSources (workerIds : List String) (providedLayout : Option WorkerLayout)
    (dir : RunDirectory δ) : List (String × ProfileEvent δ) :=
  (enabledIds workerIds providedLayout dir).dedup.flatMap fun id =>
    (eventsOn (dir.files.lines id)).map fun event => (id, event.erased)

/-- The rows of the failures of the journal that are not among those of the lines. -/
def owedSources [DecidableEq δ] (workerIds : List String) (providedLayout : Option WorkerLayout)
    (dir : RunDirectory δ) : List (String × ProfileEvent δ) :=
  (dir.journalEvents.map RunnerEvent.source).diff (lineSources workerIds providedLayout dir)

/-- What identifies the failure of a row. -/
def sourceKey (source : String × ProfileEvent δ) : Nat × String := (source.2.tsUnixNs, source.1)

/-- The files after the copies were made. -/
def RunDirectory.materialized (dir : RunDirectory δ) : ProfileFiles δ :=
  dir.files.appendAll (newCopies dir.files dir.journalEvents)

theorem materializeRunnerProfileEvents_ok
    (h : materializeRunnerProfileEvents faults dir = (.ok (), files)) :
    files = dir.materialized := by
  unfold materializeRunnerProfileEvents at h
  unfold RunDirectory.materialized RunDirectory.journalEvents newCopies
  cases hjournal : dir.journal with
  | none =>
    rw [hjournal] at h
    cases h
    rfl
  | some journal =>
    rw [hjournal] at h
    simp only at h
    split at h
    · cases h
    · obtain ⟨events, hevents, hfiles⟩ := materializeLines_ok agrees_recorded h
      rw [hfiles, readEvents_ok hevents]
      rfl

/-- What an aggregation that returned has done. -/
theorem aggregateCsv_ok {count : Nat}
    (h : aggregateCsv faults workerIds providedLayout dir = (.ok count, dir')) :
    dir'.eventsCsv = some ((rowsOf (providedLayout.or dir.workerLayout)
        (enabledIds workerIds providedLayout dir)
        (aggregateWorkerIds (providedLayout.or dir.workerLayout) workerIds)
        dir.materialized).insertionSort Row.before) ∧
      dir'.journal = dir.journal ∧ dir'.workerLayout = dir.workerLayout ∧
      (∀ id ∈ enabledIds workerIds providedLayout dir, dir'.files id = dir.materialized id) ∧
      ∀ id ∈ enabledIds workerIds providedLayout dir,
        readEvents (dir.materialized.lines id) = .ok (eventsOn (dir.materialized.lines id)) := by
  unfold aggregateCsv at h
  split at h
  · cases h
  rename_i files hmaterialize
  obtain rfl := materializeRunnerProfileEvents_ok hmaterialize
  split at h
  · cases h
  simp only at h
  split at h
  · cases h
  rename_i rows files' hcollect
  obtain ⟨rfl, hread, hkeep⟩ := collectRows_ok hcollect
  split at h
  · cases h
  split at h
  · cases h
  cases h
  refine ⟨rfl, rfl, rfl, fun id hid =>
    hkeep id (contains_iff_mem.mpr hid), fun id hid => ?_⟩
  have hmem : id ∈ (aggregateWorkerIds (providedLayout.or dir.workerLayout)
      workerIds).filter ((profileEnabledIds (providedLayout.or dir.workerLayout)
        workerIds).contains ·) :=
    aggregated_perm.mem_iff.mpr (mem_dedup.mpr hid)
  exact hread id (mem_filter.mp hmem).1 (mem_filter.mp hmem).2

theorem aggregateCsv_error {text : String}
    (h : aggregateCsv faults workerIds providedLayout dir = (.error text, dir')) :
    dir'.eventsCsv = dir.eventsCsv := by
  unfold aggregateCsv at h
  split at h
  · cases h
    rfl
  · split at h
    · cases h
      rfl
    · simp only at h
      split at h
      · cases h
        rfl
      · split_ifs at h <;> cases h <;> rfl

/-- The rows come from the lines of the enabled clients and the copies that were made for
them. -/
theorem sources_rowsOf (hread : ∀ id ∈ enabledIds workerIds providedLayout dir,
    readEvents (dir.materialized.lines id) = .ok (eventsOn (dir.materialized.lines id))) :
    ((rowsOf (providedLayout.or dir.workerLayout) (enabledIds workerIds providedLayout dir)
      (aggregateWorkerIds (providedLayout.or dir.workerLayout) workerIds)
      dir.materialized).map Row.source).Perm
      (lineSources workerIds providedLayout dir ++
        ((newCopies dir.files dir.journalEvents).filter fun copy =>
          decide (copy.failedWorkerId ∈ enabledIds workerIds providedLayout dir)).map
            RunnerEvent.source) := by
  set enabled := enabledIds workerIds providedLayout dir with henabled
  set copies := newCopies dir.files dir.journalEvents with hcopies
  have hevents (id : String) (hid : id ∈ enabled) : eventsOn (dir.materialized.lines id) =
      eventsOn (dir.files.lines id) ++
        (copies.filter (·.failedWorkerId == id)).map (·.toProfileEvent) := by
    obtain ⟨earlier, hearlier, heq⟩ := readEvents_appendAll (hread id hid)
    rw [← readEvents_ok hearlier]
    exact heq
  have hmap : (rowsOf (providedLayout.or dir.workerLayout) enabled
      (aggregateWorkerIds (providedLayout.or dir.workerLayout) workerIds)
      dir.materialized).map Row.source =
      ((aggregateWorkerIds (providedLayout.or dir.workerLayout) workerIds).filter
        (enabled.contains ·)).flatMap fun id =>
          ((eventsOn (dir.files.lines id)).map fun event => (id, event.erased)) ++
            (copies.filter (·.failedWorkerId == id)).map RunnerEvent.source := by
    rw [rowsOf, map_flatMap]
    refine flatMap_congr fun id hid => ?_
    have hmem : id ∈ enabled := by simpa using (mem_filter.mp hid).2
    rw [map_source_buildRows, hevents id hmem, map_append, map_map]
    congr 1
    refine map_congr_left fun copy hcopy => ?_
    have hcopyId : copy.failedWorkerId = id := by simpa using (mem_filter.mp hcopy).2
    rw [RunnerEvent.source, hcopyId]
    rfl
  rw [hmap]
  refine (aggregated_perm.flatMap_right _).trans
    ((flatMap_append_perm _ _ _).symm.trans (Perm.append_left _ ?_))
  have hfilter := flatMap_filter_perm (f := RunnerEvent.failedWorkerId)
    (nodup_dedup enabled) copies
  have hsame : (enabled.dedup.flatMap fun id =>
      (copies.filter (·.failedWorkerId == id)).map RunnerEvent.source) =
      (enabled.dedup.flatMap fun id => copies.filter (·.failedWorkerId == id)).map
        RunnerEvent.source := by
    rw [map_flatMap]
  refine (Perm.of_eq hsame).trans ((hfilter.map _).trans
    (Perm.of_eq (congrArg _ (filter_congr fun copy _ => ?_))))
  simp

/-- After an aggregation that returned, every failure of an enabled client has a copy. -/
theorem recorded_materialized
    (hread : readEvents (dir.materialized.lines id) = .ok (eventsOn (dir.materialized.lines id)))
    {event : RunnerEvent δ} (hevent : event ∈ dir.journalEvents) (hid : event.failedWorkerId = id) :
    dir.materialized.recorded event.key = true := by
  obtain ⟨earlier, hearlier, heq⟩ := readEvents_appendAll hread
  have hlines : eventsOn (dir.materialized.lines event.key.2) = earlier ++
      ((newCopies dir.files dir.journalEvents).filter (·.failedWorkerId == id)).map
        (·.toProfileEvent) := by
    rw [← heq, ← hid]
    rfl
  rw [recorded_eq_any, hlines, any_append]
  cases hrecorded : dir.files.recorded event.key with
  | true =>
    have hearly : earlier.any (·.copies event.key.1 event.key.2) = true := by
      rw [readEvents_ok hearlier, ← hid, ← hrecorded, recorded_eq_any]
      rfl
    rw [hearly, Bool.true_or]
  | false =>
    obtain ⟨copy, hcopy, hkey⟩ := exists_mem_firstNew hevent hrecorded
    have hcopyId : copy.failedWorkerId = event.failedWorkerId := congrArg Prod.snd hkey
    have hcopyTs : copy.tsUnixNs = event.tsUnixNs := congrArg Prod.fst hkey
    refine Bool.or_eq_true_iff.mpr (.inr (any_eq_true.mpr ⟨copy.toProfileEvent, ?_, ?_⟩))
    · exact mem_map_of_mem (mem_filter.mpr ⟨hcopy, by simp [hcopyId, hid]⟩)
    · have hcopies := toProfileEvent_copies copy event.tsUnixNs
      rw [hcopyId] at hcopies
      exact hcopies.trans (decide_eq_true hcopyTs.symm)

theorem appendAll_apply_of_forall_ne {copies : List (RunnerEvent δ)}
    (h : ∀ copy ∈ copies, copy.failedWorkerId ≠ id) : files.appendAll copies id = files id := by
  induction copies generalizing files with
  | nil => rfl
  | cons copy copies ih =>
    rw [ProfileFiles.appendAll, ih fun other hother => h other (mem_cons_of_mem _ hother)]
    exact Function.update_of_ne (Ne.symm (h copy mem_cons_self)) _ _

/-- Aggregating again gives the same rows. -/
theorem aggregateCsv_again {count : Nat}
    (h : aggregateCsv faults workerIds providedLayout dir = (.ok count, dir')) {faults' : Faults} :
    (aggregateCsv faults' workerIds providedLayout dir').2.eventsCsv = dir'.eventsCsv := by
  obtain ⟨hcsv, hjournal, hlayout, hfiles, hread⟩ := aggregateCsv_ok h
  rcases hagain : aggregateCsv faults' workerIds providedLayout dir' with ⟨result, dir''⟩
  cases result with
  | error text => exact aggregateCsv_error hagain
  | ok count' =>
    obtain ⟨hcsv', -⟩ := aggregateCsv_ok hagain
    have henabled : enabledIds workerIds providedLayout dir' =
        enabledIds workerIds providedLayout dir := by
      unfold enabledIds
      rw [hlayout]
    have hevents : dir'.journalEvents = dir.journalEvents := by
      unfold RunDirectory.journalEvents
      rw [hjournal]
    -- No failure of an enabled client gets a second copy, so that its file stays as it is.
    have hsame (id : String) (hid : id ∈ enabledIds workerIds providedLayout dir) :
        dir'.materialized.lines id = dir.materialized.lines id := by
      have hfile : dir'.materialized id = dir.materialized id := by
        refine (appendAll_apply_of_forall_ne fun copy hcopy hcopyId => ?_).trans (hfiles id hid)
        have hmem : copy ∈ dir.journalEvents := by
          rw [← hevents]
          exact (mem_filter.mp ((firstNew_sublist _ _).subset hcopy)).1
        have hrecorded := recorded_materialized (hread id hid) hmem hcopyId
        have hunseen : dir'.files.recorded copy.key = false := seen_eq_false_of_mem_firstNew hcopy
        have hlines : dir'.files.lines copy.key.2 = dir.materialized.lines copy.key.2 := by
          unfold ProfileFiles.lines
          rw [RunnerEvent.key, hcopyId, hfiles id hid]
        rw [recorded_eq_any, hlines, ← recorded_eq_any, hrecorded] at hunseen
        cases hunseen
      unfold ProfileFiles.lines
      rw [hfile]
    rw [hcsv', hcsv, henabled, hlayout]
    congr 2
    unfold rowsOf
    refine flatMap_congr fun id hid => ?_
    rw [hsame id (contains_iff_mem.mp (mem_filter.mp hid).2)]

instance : Std.Total (@Row.before δ) where
  total a b := by
    unfold Row.before
    rcases Nat.lt_trichotomy a.event.tsUnixNs b.event.tsUnixNs with h | h | h
    · exact .inl (.inl h)
    · cases ha : a.isFailure <;> cases hb : b.isFailure <;> simp [h]
    · exact .inr (.inl h)

instance : IsTrans (Row δ) Row.before where
  trans a b c := by
    rintro (hab | ⟨hab, hfab⟩) (hbc | ⟨hbc, hfbc⟩)
    · exact .inl (hab.trans hbc)
    · exact .inl (hbc ▸ hab)
    · exact .inl (hab ▸ hbc)
    · exact .inr ⟨hab.trans hbc, fun h => hfbc (hfab h)⟩

section Owed

/-- The row of a line of an enabled client that is the copy of a failure is found by its key. -/
theorem recorded_of_mem_lineSources {event : RunnerEvent δ}
    (h : event.source ∈ lineSources workerIds providedLayout dir) :
    dir.files.recorded event.key = true := by
  obtain ⟨id, -, hmem⟩ := mem_flatMap.mp h
  obtain ⟨line, hline, heq⟩ := mem_map.mp hmem
  obtain ⟨rfl, herased⟩ := Prod.mk.injEq .. ▸ heq
  rw [recorded_eq_any]
  refine any_eq_true.mpr ⟨line, hline, ?_⟩
  have hcopies : line.erased.copies event.key.1 event.key.2 = true := by
    rw [herased]
    exact (toProfileEvent_copies event event.tsUnixNs).trans (decide_eq_true rfl)
  exact hcopies

theorem map_source_missing (dir : RunDirectory δ) : dir.missing.map RunnerEvent.source =
    (dir.journalEvents.map RunnerEvent.source).filter fun source =>
      !dir.files.recorded (sourceKey source) := by
  rw [filter_map]
  rfl

variable [DecidableEq δ]

/-- If no owed row has a copy, then the owed rows are those of the missing failures. -/
theorem owedSources_perm_missing
    (h : ∀ source ∈ owedSources workerIds providedLayout dir,
      dir.files.recorded (sourceKey source) = false) :
    (owedSources workerIds providedLayout dir).Perm (dir.missing.map RunnerEvent.source) := by
  rw [map_source_missing]
  refine perm_iff_count.mpr fun source => ?_
  by_cases hrecorded : dir.files.recorded (sourceKey source) = true
  · have howed : source ∉ owedSources workerIds providedLayout dir := fun hmem => by
      rw [h source hmem] at hrecorded
      cases hrecorded
    have hmissing : source ∉ (dir.journalEvents.map RunnerEvent.source).filter fun source =>
        !dir.files.recorded (sourceKey source) := fun hmem => by
      have hp := (mem_filter.mp hmem).2
      rw [hrecorded] at hp
      cases hp
    rw [count_eq_zero.mpr howed, count_eq_zero.mpr hmissing]
  · rw [count_filter (by simpa using hrecorded), owedSources, count_diff]
    by_cases hmem : source ∈ dir.journalEvents.map RunnerEvent.source
    · obtain ⟨event, -, rfl⟩ := mem_map.mp hmem
      have hline : event.source ∉ lineSources workerIds providedLayout dir := fun hline =>
        hrecorded (recorded_of_mem_lineSources hline)
      rw [count_eq_zero.mpr hline, Nat.sub_zero]
    · rw [count_eq_zero.mpr hmem, Nat.zero_sub]

/-- The copies that are made for enabled clients are the owed rows exactly if these are of
enabled clients, have no copy yet, and are different failures. -/
theorem newCopies_perm_owedSources_iff :
    (((newCopies dir.files dir.journalEvents).filter fun copy =>
      decide (copy.failedWorkerId ∈ enabledIds workerIds providedLayout dir)).map
        RunnerEvent.source).Perm (owedSources workerIds providedLayout dir) ↔
      (∀ source ∈ owedSources workerIds providedLayout dir,
        source.1 ∈ enabledIds workerIds providedLayout dir ∧
          dir.files.recorded (sourceKey source) = false) ∧
      ((owedSources workerIds providedLayout dir).map sourceKey).Nodup := by
  constructor
  · intro hperm
    constructor
    · intro source hsource
      obtain ⟨copy, hcopy, rfl⟩ := mem_map.mp (hperm.mem_iff.mpr hsource)
      obtain ⟨hnew, henabled⟩ := mem_filter.mp hcopy
      have hunseen : dir.files.recorded copy.key = false := seen_eq_false_of_mem_firstNew hnew
      exact ⟨of_decide_eq_true henabled, hunseen⟩
    · refine (hperm.map sourceKey).nodup_iff.mp ?_
      rw [map_map]
      exact (nodup_firstNew dir.files.recorded dir.journalEvents).sublist
        (filter_sublist.map RunnerEvent.key)
  · rintro ⟨hall, hnodup⟩
    have hperm := owedSources_perm_missing fun source hsource => (hall source hsource).2
    have hkeys : (dir.missing.map RunnerEvent.key).Nodup := by
      have hsources := (hperm.map sourceKey).nodup_iff.mp hnodup
      rw [map_map] at hsources
      exact hsources
    have hcopies : newCopies dir.files dir.journalEvents = dir.missing := firstNew_eq_filter hkeys
    rw [hcopies, filter_eq_self.mpr fun event hevent => decide_eq_true
      (hall event.source (hperm.mem_iff.mpr (mem_map_of_mem hevent))).1]
    exact hperm.symm

end Owed

/-- What an aggregation has to do: if it fails it leaves the old result alone; if it returns, all
lines of enabled clients that are not blank are events, the result has one row for each of them
and each failure of the journal, with failures that are also on a line counted once, in order;
and making it again changes nothing. -/
def Faithful [DecidableEq δ] (faults : Faults) (workerIds : List String)
    (providedLayout : Option WorkerLayout) (dir : RunDirectory δ) : Prop :=
  match aggregateCsv faults workerIds providedLayout dir with
  | (.error _, dir') => dir'.eventsCsv = dir.eventsCsv
  | (.ok _, dir') => ∃ rows, dir'.eventsCsv = some rows ∧
      (∀ id ∈ enabledIds workerIds providedLayout dir, .malformed ∉ dir.files.lines id) ∧
      (rows.map Row.source).Perm
        (lineSources workerIds providedLayout dir ++ owedSources workerIds providedLayout dir) ∧
      rows.Pairwise Row.before ∧
      ∀ faults', (aggregateCsv faults' workerIds providedLayout dir').2.eventsCsv = some rows

/-- An aggregation is faithful exactly if it fails, or the failures of the journal that are not
on a line of an enabled client are failures of enabled clients, have no copy with their worker
and time, and no two of them have the same worker and time. -/
theorem aggregateCsv_faithful_iff [DecidableEq δ] (faults : Faults) (workerIds : List String)
    (providedLayout : Option WorkerLayout) (dir : RunDirectory δ) :
    Faithful faults workerIds providedLayout dir ↔
      ((aggregateCsv faults workerIds providedLayout dir).1.isOk = true →
        (∀ source ∈ owedSources workerIds providedLayout dir,
          source.1 ∈ enabledIds workerIds providedLayout dir ∧
            dir.files.recorded (sourceKey source) = false) ∧
        ((owedSources workerIds providedLayout dir).map sourceKey).Nodup) := by
  unfold Faithful
  rcases hrun : aggregateCsv faults workerIds providedLayout dir with ⟨result, dir'⟩
  cases result with
  | error text =>
    simp only [aggregateCsv_error hrun, Except.isOk, Except.toBool, Bool.false_eq_true,
      false_implies]
  | ok count =>
    obtain ⟨hcsv, -, -, -, hread⟩ := aggregateCsv_ok hrun
    have hperm := sources_rowsOf hread
    have hsorted := perm_insertionSort Row.before
      (rowsOf (providedLayout.or dir.workerLayout) (enabledIds workerIds providedLayout dir)
        (aggregateWorkerIds (providedLayout.or dir.workerLayout) workerIds) dir.materialized)
    simp only [Except.isOk, Except.toBool, true_implies]
    rw [← newCopies_perm_owedSources_iff]
    constructor
    · rintro ⟨rows, hrows, -, hcomplete, -⟩
      rw [hcsv, Option.some.injEq] at hrows
      subst hrows
      exact (perm_append_left_iff _).mp
        (hperm.symm.trans ((hsorted.map Row.source).symm.trans hcomplete))
    · intro hcopies
      refine ⟨_, hcsv, fun id hid => ?_, ?_, pairwise_insertionSort _ _, fun faults' => ?_⟩
      · obtain ⟨earlier, hearlier, -⟩ := readEvents_appendAll (hread id hid)
        exact malformed_not_mem_of_readEvents hearlier
      · exact (hsorted.map Row.source).trans (hperm.trans (hcopies.append_left _))
      · rw [aggregateCsv_again hrun, hcsv]

/-- A directory without profile files and with one failure in the journal. -/
abbrev oneFailure (failedWorkerId : String) : RunDirectory Unit :=
  { journal := some ⟨[.event ⟨7, "worker_failure", failedWorkerId, "oom_kill", none, ()⟩], none⟩
    files := fun _ => none
    workerLayout := some ⟨[⟨"alice", "w1", true⟩, ⟨"bob", "w2", false⟩]⟩
    eventsCsv := none }

abbrev noFaults : Faults :=
  ⟨false, fun _ => false, false, fun _ => false, fun _ => false, false, false⟩

/-- The failure of Bob, who is not profiled, is copied into a file that is then deleted. -/
theorem aggregateCsv_loses_failure :
    (aggregateCsv noFaults ["alice", "bob"] none (oneFailure "bob")).2.eventsCsv = some [] ∧
      ¬Faithful noFaults ["alice", "bob"] none (oneFailure "bob") := by
  refine ⟨by decide, fun ⟨rows, hrows, _, hcomplete, _⟩ => ?_⟩
  cases hrows
  exact absurd hcomplete.length_eq (by decide)

end Faithful

end MessagingBench.Profile
