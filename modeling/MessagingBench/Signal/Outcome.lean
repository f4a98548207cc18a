import MessagingBench.Profile.Aggregate
import MessagingBench.Signal.Session

/-!
# The outcome files of a Signal run

After a benchmark the profile files of the participants are aggregated into `events.csv`, which
may be switched off or fail at any point, and then the outcome files are written. They judge the
run by the length of `events.csv` alone, after a missing one has been created with nothing but a
header. Every access to a file may fail.
-/

namespace MessagingBench.Signal.Outcome

open Profile Worker

section Files

/-- An event of a profile file; columns that are only copied are left out. -/
structure ProfileEvent where
  tsUnixNs : Nat
  op : String
  eventFamily : String
  failedWorkerId : Option String
  deriving DecidableEq, Repr

structure RunnerEvent where
  tsUnixNs : Nat
  failedWorkerId : String
  deriving DecidableEq, Repr

def RunnerEvent.toProfileEvent (event : RunnerEvent) : ProfileEvent where
  tsUnixNs := event.tsUnixNs
  op := "benchmark.worker_failure"
  eventFamily := "worker_lifecycle"
  failedWorkerId := some event.failedWorkerId

structure Row where
  participantId : String
  event : ProfileEvent
  deriving DecidableEq, Repr

/-- A line of `events.csv`: column names, the row of an event, or the beginning of a line. -/
inductive CsvLine
  | header
  | row (row : Row)
  | fragment
  deriving DecidableEq, Repr

abbrev ProfileFiles : Type := String → Option (JsonLines ProfileEvent)

structure RunDirectory where
  /-- `runner-events.jsonl` -/
  journal : Option (JsonLines RunnerEvent)
  files : ProfileFiles
  /-- The group model that `scenario_plan.json` states, if the file exists. -/
  scenarioPlan : Option (Except String GroupModel)
  eventsCsv : Option (List CsvLine)

/-- The accesses to files that fail. -/
structure Faults where
  openJournal : Bool := false
  append : String → Bool := fun _ => false
  createEvents : Bool := false
  openProfile : String → Bool := fun _ => false
  remove : String → Bool := fun _ => false
  /-- The row with this number cannot be written. -/
  serialize : Nat → Bool := fun _ => false
  flush : Bool := false
  /-- How many lines are on disk after a failure, if not all, and whether the next one is begun. -/
  kept : Option Nat := none
  torn : Bool := false
  writeFailures : Bool := false
  reopenJournal : Bool := false
  createHeader : Bool := false
  writeHeader : Bool := false
  metadata : Bool := false
  journalMetadata : Bool := false
  runStatus : Bool := false
  outcome : Bool := false
  report : Bool := false

end Files

section Aggregation

variable (faults : Faults)

def signalProfileContainsRunnerEvent (event : RunnerEvent) :
    List (Line ProfileEvent) → Except String Bool
  | [] => .ok false
  | .blank :: lines => signalProfileContainsRunnerEvent event lines
  | .malformed :: _ => .error "Invalid json"
  | .event other :: lines =>
    if other.op = "benchmark.worker_failure" ∧ other.tsUnixNs = event.tsUnixNs ∧
        other.failedWorkerId = some event.failedWorkerId then .ok true
    else signalProfileContainsRunnerEvent event lines

def ProfileFiles.lines (files : ProfileFiles) (id : String) : List (Line ProfileEvent) :=
  ((files id).map JsonLines.lines).getD []

def ProfileFiles.append (files : ProfileFiles) (id : String) (event : ProfileEvent) :
    ProfileFiles :=
  Function.update files id (some (((files id).getD ⟨[], none⟩).append event))

/-- The loop of `materialize_runner_profile_events`. -/
def materializeLines : List (Line RunnerEvent) → ProfileFiles → Except String Unit × ProfileFiles
  | [], files => (.ok (), files)
  | .blank :: lines, files => materializeLines lines files
  | .malformed :: _, files => (.error "Invalid json", files)
  | .event event :: lines, files =>
    match signalProfileContainsRunnerEvent event (files.lines event.failedWorkerId) with
    | .error text => (.error text, files)
    | .ok true => materializeLines lines files
    | .ok false =>
      if faults.append event.failedWorkerId then (.error "Failed to open", files)
      else materializeLines lines (files.append event.failedWorkerId event.toProfileEvent)

def materializeRunnerProfileEvents (dir : RunDirectory) : Except String Unit × ProfileFiles :=
  match dir.journal with
  | none => (.ok (), dir.files)
  | some journal =>
    if faults.openJournal then (.error "Failed to open", dir.files)
    else materializeLines faults journal.lines dir.files

/-- Without a plan, or without a group model in it, the group model is the default. -/
def groupModelOf (plan : Option (Except String GroupModel)) : Except String GroupModel :=
  plan.getD (.ok .pairwise)

def ProfileEvent.isSenderKeys (event : ProfileEvent) : Bool :=
  event.eventFamily == "sender_keys" || containsText "sender_key" event.op

/-- The rows of one participant are written behind those that were written before. -/
def writeRows (groupModel : GroupModel) (id : String) :
    List (Line ProfileEvent) → List Row → Except String Unit × List Row
  | [], rows => (.ok (), rows)
  | .blank :: lines, rows => writeRows groupModel id lines rows
  | .malformed :: _, rows => (.error "Invalid json", rows)
  | .event event :: lines, rows =>
    if event.isSenderKeys = true ∧ groupModel ≠ .senderKeys then
      (.error "Sender Keys trace requires group_model=sender_keys in scenario_plan.json", rows)
    else if faults.serialize rows.length then (.error "Failed to write", rows)
    else writeRows groupModel id lines (rows ++ [⟨id, event⟩])

/-- The loop over the participants. -/
def writeParticipants (groupModel : GroupModel) (enabled : List String) :
    List String → ProfileFiles → List Row → Except String Unit × ProfileFiles × List Row
  | [], files, rows => (.ok (), files, rows)
  | id :: ids, files, rows =>
    if enabled.contains id then
      match files id with
      | none => writeParticipants groupModel enabled ids files rows
      | some file =>
        if faults.openProfile id then (.error "Failed to open", files, rows)
        else
          match writeRows faults groupModel id file.lines rows with
          | (.error text, rows') => (.error text, files, rows')
          | (.ok (), rows') => writeParticipants groupModel enabled ids files rows'
    else
      writeParticipants groupModel enabled ids
        (if faults.remove id then files else Function.update files id none) rows

/-- The header is written with the first row. -/
def written (rows : List Row) : List CsvLine :=
  if rows.isEmpty then [] else .header :: rows.map .row

/-- What is on disk after a failure; the writer tries to save what it has when it is dropped. -/
def settled (rows : List Row) : List CsvLine :=
  match faults.kept with
  | none => written rows
  | some n => (written rows).take n ++ if faults.torn then [.fragment] else []

def flushRows (dir : RunDirectory) (rows : List Row) : Except String Unit × RunDirectory :=
  if faults.flush then
    (.error "Failed to flush", { dir with eventsCsv := some (settled faults rows) })
  else (.ok (), { dir with eventsCsv := some (written rows) })

def aggregateCsv (workerIds : List String) (providedLayout : Option WorkerLayout)
    (dir : RunDirectory) : Except String Unit × RunDirectory :=
  match materializeRunnerProfileEvents faults dir with
  | (.error text, files) => (.error text, { dir with files := files })
  | (.ok (), files) =>
    match groupModelOf dir.scenarioPlan with
    | .error text => (.error text, { dir with files := files })
    | .ok groupModel =>
      if faults.createEvents then (.error "Failed to create", { dir with files := files })
      else
        match writeParticipants faults groupModel (profileEnabledIds providedLayout workerIds)
            workerIds files [] with
        | (.error text, files', rows) =>
          (.error text, { dir with files := files', eventsCsv := some (settled faults rows) })
        | (.ok (), files', rows) => flushRows faults { dir with files := files' } rows

/-- How the aggregation of a run went. -/
inductive Aggregation
  | skipped
  | failed (text : String)
  | succeeded
  deriving DecidableEq, Repr

/-- The step of `run`; an error is only logged. -/
def aggregate (noAggregate : Bool) (workerIds : List String)
    (providedLayout : Option WorkerLayout) (dir : RunDirectory) : Aggregation × RunDirectory :=
  if noAggregate then (.skipped, dir)
  else
    match aggregateCsv faults workerIds providedLayout dir with
    | (.error text, dir') => (.failed text, dir')
    | (.ok (), dir') => (.succeeded, dir')

end Aggregation

section Sidecars

variable (faults : Faults)

inductive RunStatus
  | completed
  | failed
  deriving DecidableEq, Repr

/-- What the outcome files say, as far as they were written. -/
structure Sidecars where
  runStatus : Option RunStatus := none
  success : Option Bool := none
  valid : Option Bool := none
  deriving DecidableEq, Repr

variable (dir : RunDirectory)

def writeWorkerFailuresCsv : Except String Unit :=
  if faults.writeFailures then .error "Failed to write"
  else
    match dir.journal with
    | none => .ok ()
    | some journal =>
      if faults.reopenJournal then .error "Failed to open"
      else (readEvents journal.lines).map fun _ => ()

/-- A missing `events.csv` is created with a header. -/
def ensureEventsCsv : Except String Unit × RunDirectory :=
  match dir.eventsCsv with
  | some _ => (.ok (), dir)
  | none =>
    if faults.createHeader then (.error "Failed to create", dir)
    else if faults.writeHeader then (.error "Failed to write", { dir with eventsCsv := some [] })
    else (.ok (), { dir with eventsCsv := some [.header] })

def eventsCsvNonEmpty : Bool :=
  match dir.eventsCsv with
  | none => false
  | some lines => !faults.metadata && !lines.isEmpty

def hasFailures : Bool :=
  match dir.journal with
  | none => false
  | some journal => !faults.journalMetadata && !journal.lines.isEmpty

/-- `write_run_status_csv`, `write_benchmark_outcome_json` and `write_validation_report_json`. -/
def writeOutcomes (nonEmpty failures : Bool) : Except String Unit × Sidecars :=
  let status := if nonEmpty then RunStatus.completed else RunStatus.failed
  if faults.runStatus then (.error "Failed to write", {})
  else if faults.outcome then (.error "Failed to write", { runStatus := some status })
  else if faults.report then
    (.error "Failed to write",
      { runStatus := some status, success := some (nonEmpty && !failures) })
  else
    (.ok (), {
      runStatus := some status
      success := some (nonEmpty && !failures)
      valid := some nonEmpty })

def writePostBenchmarkSidecars :
    Except String Unit × Sidecars × RunDirectory :=
  match writeWorkerFailuresCsv faults dir with
  | .error text => (.error text, {}, dir)
  | .ok () =>
    match ensureEventsCsv faults dir with
    | (.error text, dir') => (.error text, {}, dir')
    | (.ok (), dir') =>
      let outcomes := writeOutcomes faults (eventsCsvNonEmpty faults dir') (hasFailures faults dir')
      (outcomes.1, outcomes.2, dir')

end Sidecars

section Truthfulness

variable {faults : Faults} {dir dir' : RunDirectory} {workerIds : List String}
  {providedLayout : Option WorkerLayout}

/-- Some outcome file says that the run was good. -/
def Sidecars.Favourable (sidecars : Sidecars) : Prop :=
  sidecars.runStatus = some .completed ∨ sidecars.success = some true ∨
    sidecars.valid = some true

instance (sidecars : Sidecars) : Decidable sidecars.Favourable :=
  inferInstanceAs (Decidable (_ ∨ _ ∨ _))

/-- `events.csv` has the row of an event. -/
def RunDirectory.HasEventRow (dir : RunDirectory) : Prop :=
  ∃ lines row, dir.eventsCsv = some lines ∧ CsvLine.row row ∈ lines

/-- The outcome files say that a run was good only if its events were aggregated and there are
some. -/
def Truthful (aggregation : Aggregation) (sidecars : Sidecars) (dir : RunDirectory) : Prop :=
  sidecars.Favourable → aggregation = .succeeded ∧ dir.HasEventRow

/-- The state of the directory and the faults keep the outcome files from being written, or
`events.csv` is there and empty, or its length cannot be told. -/
def Withheld (faults : Faults) (dir : RunDirectory) : Prop :=
  writeWorkerFailuresCsv faults dir ≠ .ok () ∨ dir.eventsCsv = some [] ∨
    faults.metadata = true ∨
    dir.eventsCsv = none ∧ (faults.createHeader = true ∨ faults.writeHeader = true) ∨
    faults.runStatus = true

/-- After an aggregation that succeeded the file has the header and rows, or is empty. -/
theorem aggregateCsv_ok (h : aggregateCsv faults workerIds providedLayout dir = (.ok (), dir')) :
    ∃ rows, dir'.eventsCsv = some (written rows) := by
  unfold aggregateCsv at h
  split at h
  · cases h
  split at h
  · cases h
  split at h
  · cases h
  split at h
  · cases h
  rename_i rows hrows
  unfold flushRows at h
  split at h
  · cases h
  · cases h
    exact ⟨rows, rfl⟩

/-- A written file that is not empty has the row of an event. -/
theorem row_mem_written {rows : List Row} (h : written rows ≠ []) :
    ∃ row, CsvLine.row row ∈ written rows := by
  cases rows with
  | nil => exact absurd rfl h
  | cons row rows =>
    exact ⟨row, List.mem_cons_of_mem _ (List.mem_map.mpr ⟨row, List.mem_cons_self, rfl⟩)⟩

/-- A run is called good only if the file was found not to be empty. -/
theorem favourable_writeOutcomes {nonEmpty failures : Bool} :
    (writeOutcomes faults nonEmpty failures).2.Favourable ↔
      nonEmpty = true ∧ faults.runStatus = false := by
  unfold writeOutcomes Sidecars.Favourable
  cases nonEmpty <;> cases hstatus : faults.runStatus <;> cases faults.outcome <;>
    cases faults.report <;> simp

/-- A run is called good exactly if nothing withholds it. -/
theorem favourable_iff :
    (writePostBenchmarkSidecars faults dir).2.1.Favourable ↔ ¬ Withheld faults dir := by
  have hnone : ¬ ({} : Sidecars).Favourable := by decide
  unfold writePostBenchmarkSidecars Withheld
  cases hfailures : writeWorkerFailuresCsv faults dir with
  | error text => simp [hnone]
  | ok _ =>
    cases hevents : dir.eventsCsv with
    | some lines =>
      simp [ensureEventsCsv, hevents, favourable_writeOutcomes, eventsCsvNonEmpty]
      tauto
    | none =>
      cases hcreate : faults.createHeader with
      | true => simp [ensureEventsCsv, hevents, hcreate, hnone]
      | false =>
        cases hwrite : faults.writeHeader with
        | true => simp [ensureEventsCsv, hevents, hcreate, hwrite, hnone]
        | false =>
          simp [ensureEventsCsv, hevents, hcreate, hwrite, favourable_writeOutcomes,
            eventsCsvNonEmpty]

/-- An aggregation that succeeded left a file that has rows unless it is empty. -/
theorem aggregate_succeeded {noAggregate : Bool}
    (h : (aggregate faults noAggregate workerIds providedLayout dir).1 = .succeeded) :
    ∃ rows, (aggregate faults noAggregate workerIds providedLayout dir).2.eventsCsv =
      some (written rows) := by
  unfold aggregate at h ⊢
  split at h
  · cases h
  rename_i hno
  rw [if_neg hno]
  split at h
  · cases h
  · rename_i dir' hok
    obtain ⟨rows, hrows⟩ := aggregateCsv_ok hok
    exact ⟨rows, hrows⟩

/-- The outcome files leave an existing `events.csv` alone. -/
theorem eventsCsv_writePostBenchmarkSidecars {lines : List CsvLine}
    (h : dir.eventsCsv = some lines) :
    (writePostBenchmarkSidecars faults dir).2.2.eventsCsv = some lines := by
  unfold writePostBenchmarkSidecars
  cases writeWorkerFailuresCsv faults dir with
  | error text => exact h
  | ok _ => simp only [ensureEventsCsv, h]

/-- Whatever became of the aggregation: what the outcome files say is true exactly if it
succeeded, or if they are kept from saying anything good. -/
theorem sidecars_truthful_iff (faults : Faults) (noAggregate : Bool) (workerIds : List String)
    (providedLayout : Option WorkerLayout) (dir : RunDirectory) :
    Truthful (aggregate faults noAggregate workerIds providedLayout dir).1
        (writePostBenchmarkSidecars faults
          (aggregate faults noAggregate workerIds providedLayout dir).2).2.1
        (writePostBenchmarkSidecars faults
          (aggregate faults noAggregate workerIds providedLayout dir).2).2.2 ↔
      (aggregate faults noAggregate workerIds providedLayout dir).1 = .succeeded ∨
        Withheld faults (aggregate faults noAggregate workerIds providedLayout dir).2 := by
  unfold Truthful
  rw [favourable_iff]
  constructor
  · intro htruthful
    by_cases hwithheld : Withheld faults (aggregate faults noAggregate workerIds providedLayout dir).2
    · exact .inr hwithheld
    · exact .inl (htruthful hwithheld).1
  · rintro (hsucceeded | hwithheld) hgood
    · obtain ⟨rows, hrows⟩ := aggregate_succeeded hsucceeded
      have hfilled : written rows ≠ [] := by
        intro hempty
        rw [hempty] at hrows
        exact hgood (.inr (.inl hrows))
      obtain ⟨row, hrow⟩ := row_mem_written hfilled
      exact ⟨hsucceeded, written rows, row, eventsCsv_writePostBenchmarkSidecars hrows, hrow⟩
    · exact absurd hwithheld hgood

/-- Aggregation is switched off, and there are no events: the run is called completed, successful
and valid. -/
theorem sidecars_untruthful :
    (writePostBenchmarkSidecars {} (aggregate {} true [] none ⟨none, fun _ => none, none, none⟩).2) =
        (.ok (), ⟨some .completed, some true, some true⟩,
          ⟨none, fun _ => none, none, some [.header]⟩) ∧
      ¬ Truthful (aggregate {} true [] none ⟨none, fun _ => none, none, none⟩).1
        (writePostBenchmarkSidecars {}
          (aggregate {} true [] none ⟨none, fun _ => none, none, none⟩).2).2.1
        (writePostBenchmarkSidecars {}
          (aggregate {} true [] none ⟨none, fun _ => none, none, none⟩).2).2.2 := by
  refine ⟨rfl, fun htruthful => ?_⟩
  have hsucceeded := (htruthful (.inl rfl)).1
  cases hsucceeded

end Truthfulness

end MessagingBench.Signal.Outcome
