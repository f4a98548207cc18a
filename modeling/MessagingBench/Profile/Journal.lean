import MessagingBench.Core.FirstNew

/-!
# The runner's journal and the profile files of the clients

Failures of workers are written to the journal and copied into the profile file of the
worker; before events are aggregated, missing copies are made up for. A line is blank, holds
an event or cannot be read; the last one may lack its end, and what is appended then
continues it. Fields that no code looks at are an arbitrary type.
-/

namespace MessagingBench.Profile

open List

variable {δ : Type}

section Files

structure ProfileEvent (δ : Type) where
  tsUnixNs : Nat
  op : String
  runnerEventKind : Option String
  failedWorkerId : Option String
  failureClass : Option String
  spanId : Option Nat
  spanName : Option String
  parentOperation : Option String
  rest : δ
  deriving DecidableEq, Repr

/-- An event of the journal. The span id is the one that the failure detail names. -/
structure RunnerEvent (δ : Type) where
  tsUnixNs : Nat
  eventKind : String
  failedWorkerId : String
  failureClass : String
  failureSpanId : Option Nat
  rest : δ
  deriving DecidableEq, Repr

def RunnerEvent.toProfileEvent (event : RunnerEvent δ) : ProfileEvent δ :=
  { tsUnixNs := event.tsUnixNs
    op := "benchmark.worker_failure"
    runnerEventKind := some event.eventKind
    failedWorkerId := some event.failedWorkerId
    failureClass := some event.failureClass
    spanId := event.failureSpanId
    spanName := none
    parentOperation := none
    rest := event.rest }

inductive Line (α : Type)
  | blank
  | malformed
  | event (value : α)
  deriving DecidableEq, Repr

/-- A file of lines, the last of which may be without an end. -/
structure JsonLines (α : Type) where
  complete : List (Line α)
  tail : Option (Line α)
  deriving DecidableEq, Repr

def JsonLines.lines {α : Type} (file : JsonLines α) : List (Line α) :=
  file.complete ++ file.tail.toList

/-- What is written behind a line without an end becomes part of that line. -/
def Line.continued {α : Type} (value : α) : Line α → Line α
  | .blank => .event value
  | .malformed => .malformed
  | .event _ => .malformed

def JsonLines.append {α : Type} (file : JsonLines α) (value : α) : JsonLines α :=
  match file.tail with
  | none => ⟨file.complete ++ [.event value], none⟩
  | some line => ⟨file.complete ++ [line.continued value], none⟩

/-- All events of a file; blank lines are skipped. -/
def readEvents {α : Type} : List (Line α) → Except String (List α)
  | [] => .ok []
  | .blank :: lines => readEvents lines
  | .malformed :: _ => .error "Invalid json"
  | .event value :: lines => (readEvents lines).map (value :: ·)

abbrev ProfileFiles (δ : Type) : Type := String → Option (JsonLines (ProfileEvent δ))

def ProfileFiles.lines (files : ProfileFiles δ) (id : String) : List (Line (ProfileEvent δ)) :=
  ((files id).map JsonLines.lines).getD []

/-- `append_profile_event`; a missing file is created. -/
def ProfileFiles.append (files : ProfileFiles δ) (id : String) (event : ProfileEvent δ) :
    ProfileFiles δ :=
  Function.update files id (some (((files id).getD ⟨[], none⟩).append event))

end Files

section Materializing

/-- The event of a profile file is the copy of a failure at this time of this worker. -/
def ProfileEvent.copies (event : ProfileEvent δ) (tsUnixNs : Nat) (failedWorkerId : String) :
    Bool :=
  event.op == "benchmark.worker_failure" && event.tsUnixNs == tsUnixNs &&
    event.failedWorkerId == some failedWorkerId

/-- The loop of `profile_contains_runner_event`. -/
def containsRunnerEvent (tsUnixNs : Nat) (failedWorkerId : String) :
    List (Line (ProfileEvent δ)) → Except String Bool
  | [] => .ok false
  | .blank :: lines => containsRunnerEvent tsUnixNs failedWorkerId lines
  | .malformed :: _ => .error "Invalid json"
  | .event event :: lines =>
    if event.copies tsUnixNs failedWorkerId then .ok true
    else containsRunnerEvent tsUnixNs failedWorkerId lines

/-- The loop of `materialize_runner_profile_events` over the lines of the journal; appending to
the file of a worker may fail. -/
def materializeLines (appendFails : String → Bool) :
    List (Line (RunnerEvent δ)) → ProfileFiles δ → Except String Unit × ProfileFiles δ
  | [], files => (.ok (), files)
  | .blank :: lines, files => materializeLines appendFails lines files
  | .malformed :: _, files => (.error "Invalid json", files)
  | .event event :: lines, files =>
    match containsRunnerEvent event.tsUnixNs event.failedWorkerId
        (files.lines event.failedWorkerId) with
    | .error text => (.error text, files)
    | .ok true => materializeLines appendFails lines files
    | .ok false =>
      if appendFails event.failedWorkerId then (.error "Failed to open", files)
      else materializeLines appendFails lines
        (files.append event.failedWorkerId event.toProfileEvent)

/-- What identifies a failure. -/
def RunnerEvent.key (event : RunnerEvent δ) : Nat × String :=
  (event.tsUnixNs, event.failedWorkerId)

/-- A copy of the failure is in the file of its worker. -/
def ProfileFiles.recorded (files : ProfileFiles δ) (key : Nat × String) : Bool :=
  (files.lines key.2).any fun line =>
    match line with
    | .event event => event.copies key.1 key.2
    | _ => false

def newCopies (files : ProfileFiles δ) (events : List (RunnerEvent δ)) : List (RunnerEvent δ) :=
  firstNew RunnerEvent.key files.recorded events

end Materializing

section Facts

theorem lines_append (files : ProfileFiles δ) (id other : String) (event : ProfileEvent δ) :
    (files.append id event).lines other =
      if other = id then (((files id).getD ⟨[], none⟩).append event).lines
      else files.lines other := by
  unfold ProfileFiles.lines ProfileFiles.append
  by_cases h : other = id
  · simp [h]
  · simp [h]

variable {tsUnixNs : Nat} {seen : Nat × String → Bool} {files : ProfileFiles δ}
  {failedWorkerId : String} {event : RunnerEvent δ} {found : Bool} {α : Type}

/-- A search that returned without an error has looked at all lines or has found a copy. -/
theorem containsRunnerEvent_append {before after : List (Line (ProfileEvent δ))} :
    containsRunnerEvent tsUnixNs failedWorkerId (before ++ after) =
      match containsRunnerEvent tsUnixNs failedWorkerId before with
      | .ok false => containsRunnerEvent tsUnixNs failedWorkerId after
      | result => result := by
  induction before with
  | nil => rfl
  | cons line before ih =>
    cases line with
    | blank => exact ih
    | malformed => rfl
    | event event =>
      rw [cons_append, containsRunnerEvent, containsRunnerEvent]
      split
      · rfl
      · exact ih

theorem containsRunnerEvent_ok {lines : List (Line (ProfileEvent δ))}
    (h : containsRunnerEvent tsUnixNs failedWorkerId lines = .ok found) :
    (lines.any fun line =>
      match line with
      | .event event => event.copies tsUnixNs failedWorkerId
      | _ => false) = found := by
  induction lines with
  | nil =>
    cases h
    rfl
  | cons line lines ih =>
    cases line with
    | blank => exact ih h
    | malformed => cases h
    | event event =>
      rw [containsRunnerEvent] at h
      split at h
      · rename_i hcopies
        cases h
        simp [hcopies]
      · rename_i hcopies
        simp [hcopies, ih h]

/-- The searches that succeed find what has been seen. -/
def Agrees (files : ProfileFiles δ) (seen : Nat × String → Bool) : Prop :=
  ∀ tsUnixNs id found, containsRunnerEvent tsUnixNs id (files.lines id) = .ok found →
    found = seen (tsUnixNs, id)

theorem agrees_recorded : Agrees files files.recorded :=
  fun _ _ _ h => (containsRunnerEvent_ok h).symm

theorem toProfileEvent_copies (event : RunnerEvent δ) (tsUnixNs : Nat) :
    event.toProfileEvent.copies tsUnixNs event.failedWorkerId =
      decide (tsUnixNs = event.tsUnixNs) := by
  simp only [ProfileEvent.copies, RunnerEvent.toProfileEvent, beq_self_eq_true, Bool.true_and,
    Bool.and_true]
  exact decide_eq_decide.mpr eq_comm

/-- What a search finds in a file to which a copy was appended. -/
theorem containsRunnerEvent_appended {file : JsonLines (ProfileEvent δ)}
    (hnew : containsRunnerEvent event.tsUnixNs event.failedWorkerId file.lines = .ok false)
    (h : containsRunnerEvent tsUnixNs event.failedWorkerId
      (file.append event.toProfileEvent).lines = .ok found) :
    (tsUnixNs = event.tsUnixNs → found = true) ∧ (tsUnixNs ≠ event.tsUnixNs →
      containsRunnerEvent tsUnixNs event.failedWorkerId file.lines = .ok found) := by
  obtain ⟨complete, tail⟩ := file
  have hlast (ts : Nat) : containsRunnerEvent ts event.failedWorkerId
      [.event event.toProfileEvent] = .ok (decide (ts = event.tsUnixNs)) := by
    rw [containsRunnerEvent, toProfileEvent_copies]
    by_cases hts : ts = event.tsUnixNs <;> simp [hts, containsRunnerEvent]
  -- The appended copy stands on a line of its own, or on what was a blank line.
  have hown (hnew' : containsRunnerEvent event.tsUnixNs event.failedWorkerId complete = .ok false)
      (h' : containsRunnerEvent tsUnixNs event.failedWorkerId
        (complete ++ [.event event.toProfileEvent]) = .ok found) :
      (tsUnixNs = event.tsUnixNs → found = true) ∧ (tsUnixNs ≠ event.tsUnixNs →
        containsRunnerEvent tsUnixNs event.failedWorkerId complete = .ok found) := by
    rw [containsRunnerEvent_append, hlast] at h'
    constructor
    · rintro rfl
      rw [hnew'] at h'
      simpa using h'.symm
    · intro hts
      split at h'
      · rename_i hfalse
        rw [hfalse]
        simpa [hts] using h'
      · exact h'
  have hblank (ts : Nat) : containsRunnerEvent ts event.failedWorkerId (complete ++ [.blank]) =
      containsRunnerEvent ts event.failedWorkerId complete := by
    rw [containsRunnerEvent_append]
    split
    · rename_i hfalse
      rw [hfalse]
      rfl
    · rfl
  cases tail with
  | none =>
    simp only [JsonLines.lines, JsonLines.append, Option.toList_none, append_nil] at hnew h ⊢
    exact hown hnew h
  | some line =>
    simp only [JsonLines.lines, JsonLines.append, Option.toList_some, Option.toList_none,
      append_nil] at hnew h ⊢
    cases line with
    | blank =>
      rw [hblank] at hnew ⊢
      exact hown hnew h
    | malformed =>
      rw [containsRunnerEvent_append] at hnew
      split at hnew
      · cases hnew
      · rename_i hne
        exact absurd hnew hne
    | event value =>
      rw [Line.continued, containsRunnerEvent_append] at h
      split at h
      · cases h
      rename_i hne
      have hfound : found = true := by
        cases found with
        | false => exact absurd h hne
        | true => rfl
      subst hfound
      refine ⟨fun _ => rfl, fun _ => ?_⟩
      rw [containsRunnerEvent_append, h]

/-- A copy that is made is found from then on. -/
theorem Agrees.append
    (h : Agrees files seen)
    (hnew : containsRunnerEvent event.tsUnixNs event.failedWorkerId
      (files.lines event.failedWorkerId) = .ok false) :
    Agrees (files.append event.failedWorkerId event.toProfileEvent)
      (Function.update seen event.key true) := by
  intro tsUnixNs id found hfound
  rw [lines_append] at hfound
  by_cases hid : id = event.failedWorkerId
  · subst hid
    rw [if_pos rfl] at hfound
    have hseen {b : Bool} (hb : containsRunnerEvent tsUnixNs event.failedWorkerId
        (files.lines event.failedWorkerId) = .ok b) : b = seen (tsUnixNs, event.failedWorkerId) :=
      h tsUnixNs event.failedWorkerId b hb
    have hlines : files.lines event.failedWorkerId =
        ((files event.failedWorkerId).getD ⟨[], none⟩).lines := by
      unfold ProfileFiles.lines
      cases files event.failedWorkerId <;> rfl
    rw [hlines] at hnew hseen
    obtain ⟨hsame, hother⟩ := containsRunnerEvent_appended hnew hfound
    by_cases hts : tsUnixNs = event.tsUnixNs
    · rw [hsame hts, hts]
      exact (Function.update_self event.key true seen).symm
    · have hkey : (tsUnixNs, event.failedWorkerId) ≠ event.key :=
        fun heq => hts (congrArg Prod.fst heq)
      rw [Function.update_of_ne hkey]
      exact hseen (hother hts)
  · rw [if_neg hid] at hfound
    have hkey : (tsUnixNs, id) ≠ event.key := fun heq => hid (congrArg Prod.snd heq)
    rw [Function.update_of_ne hkey]
    exact h tsUnixNs id found hfound

/-- The file of a client after copies were appended to it. -/
def ProfileFiles.appendAll (files : ProfileFiles δ) : List (RunnerEvent δ) → ProfileFiles δ
  | [] => files
  | event :: events =>
    (files.append event.failedWorkerId event.toProfileEvent).appendAll events

/-- What materializing does: the journal can be read, and the copies of the failures that have
none yet are appended. -/
theorem materializeLines_ok {appendFails : String → Bool} {lines : List (Line (RunnerEvent δ))}
    {files' : ProfileFiles δ} (hagrees : Agrees files seen)
    (h : materializeLines appendFails lines files = (.ok (), files')) :
    ∃ events, readEvents lines = .ok events ∧
      files' = files.appendAll (firstNew RunnerEvent.key seen events) := by
  induction lines generalizing files seen with
  | nil =>
    cases h
    exact ⟨[], rfl, rfl⟩
  | cons line lines ih =>
    cases line with
    | blank => exact ih hagrees h
    | malformed => cases h
    | event event =>
      rw [materializeLines] at h
      split at h
      · cases h
      · rename_i hfound
        obtain ⟨events, hevents, hfiles⟩ := ih hagrees h
        have hseen : seen event.key = true := (hagrees _ _ _ hfound).symm
        refine ⟨event :: events, by rw [readEvents, hevents]; rfl, ?_⟩
        rw [hfiles, firstNew, if_pos hseen]
      · rename_i hfound
        have hseen : seen event.key = false := (hagrees _ _ _ hfound).symm
        split at h
        · cases h
        obtain ⟨events, hevents, hfiles⟩ := ih (hagrees.append hfound) h
        refine ⟨event :: events, by rw [readEvents, hevents]; rfl, ?_⟩
        rw [hfiles, firstNew, if_neg (by simp [hseen])]
        rfl

theorem readEvents_append (before after : List (Line α)) :
    readEvents (before ++ after) = (do
      let first ← readEvents before
      let second ← readEvents after
      return first ++ second) := by
  induction before with
  | nil =>
    rw [nil_append]
    cases readEvents after <;> rfl
  | cons line before ih =>
    cases line with
    | blank => exact ih
    | malformed => rfl
    | event value =>
      rw [cons_append, readEvents, ih, readEvents]
      cases readEvents before with
      | error text => rfl
      | ok first => cases readEvents after <;> rfl

/-- An appended event that can be read comes behind those that were there. -/
theorem readEvents_appended {file : JsonLines α} {value : α} {events : List α}
    (h : readEvents (file.append value).lines = .ok events) :
    ∃ earlier, readEvents file.lines = .ok earlier ∧ events = earlier ++ [value] := by
  obtain ⟨complete, tail⟩ := file
  cases tail with
  | none =>
    simp only [JsonLines.lines, JsonLines.append, Option.toList_none, append_nil,
      readEvents_append] at h ⊢
    cases hcomplete : readEvents complete with
    | error text => simp [hcomplete, bind, Except.bind] at h
    | ok earlier =>
      rw [hcomplete] at h
      cases h
      exact ⟨earlier, rfl, rfl⟩
  | some line =>
    simp only [JsonLines.lines, JsonLines.append, Option.toList_some, Option.toList_none,
      append_nil, readEvents_append] at h ⊢
    cases hcomplete : readEvents complete with
    | error text => simp [hcomplete, bind, Except.bind] at h
    | ok earlier =>
      rw [hcomplete] at h
      cases line with
      | blank =>
        cases h
        exact ⟨earlier, by simp [readEvents, bind, Except.bind, pure, Except.pure], rfl⟩
      | malformed => cases h
      | event other => cases h

/-- What can be read of the file of a client after copies were appended. -/
theorem readEvents_appendAll {copies : List (RunnerEvent δ)}
    {id : String} {events : List (ProfileEvent δ)}
    (h : readEvents ((files.appendAll copies).lines id) = .ok events) :
    ∃ earlier, readEvents (files.lines id) = .ok earlier ∧ events = earlier ++
      (copies.filter (·.failedWorkerId == id)).map (·.toProfileEvent) := by
  induction copies generalizing files with
  | nil => exact ⟨events, h, by simp⟩
  | cons copy copies ih =>
    obtain ⟨later, hlater, hevents⟩ := ih h
    rw [lines_append] at hlater
    by_cases hid : id = copy.failedWorkerId
    · rw [if_pos hid] at hlater
      obtain ⟨earlier, hearlier, rfl⟩ := readEvents_appended hlater
      refine ⟨earlier, ?_, by simp [hevents, hid]⟩
      rw [← hearlier, hid]
      unfold ProfileFiles.lines
      cases files copy.failedWorkerId <;> rfl
    · rw [if_neg hid] at hlater
      have hne : (copy.failedWorkerId == id) = false := beq_eq_false_iff_ne.mpr (Ne.symm hid)
      exact ⟨later, hlater, by rw [hevents, filter_cons, hne]; rfl⟩

end Facts

end MessagingBench.Profile
