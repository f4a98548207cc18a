import MessagingBench.Worker.Profiling

/-!
# The context that events carry

After a request a command may find anything in the state of its thread. It sets the worker id
and its benchmark context again before it calls the client, so that all events carry them; a
command that calls the client before its first request relies on what its actor has set, which
is the context only if it announces a benchmark.
-/

namespace MessagingBench.Worker.Profiling

section Attribution

variable {α β : Type} {client : String} {context : BenchmarkContext} {operation : Operation}

/-- The operation of a queued intent does not replace what its context says. -/
def Retriable (queuedIntent : Option PendingIntent) : Prop :=
  ∀ intent ∈ queuedIntent, intent.benchmarkContext.Suits intent.operation

/-- Commands may go on on any thread, whatever others have left there. -/
def attribution : Conduct threading (Option PendingIntent) String where
  wake _ _ := True
  rely _ _ := True
  good := Emission.Carries
  valid _ := True
  valid_rely _ _ := trivial
  rely_refl _ := trivial
  rely_trans _ _ := trivial
  clean _ := True
  keeps _ := Retriable
  touch _ _ _ _ := True
  ends _ _ := Retriable
  keeps_of_ends := id

/-- The code attributes all events rightly if it begins in a state of the thread. -/
def RightlyFrom (l : Locals) (x : Code α) : Prop :=
  ∀ queuedIntent g, Retriable queuedIntent →
    (x queuedIntent).Ensures attribution.toDiscipline (fun _ _ => True)
      (fun r _ _ => Retriable r.2) l g

/-- The code attributes all events rightly wherever it runs. -/
def Rightly (x : Code α) : Prop := ∀ l, RightlyFrom l x

variable {x : Code α} {f : Answer → Code α}

namespace Rightly

theorem pure (a : α) : Rightly (Pure.pure a : Code α) := fun _ _ _ hkept _ _ => hkept

theorem fail (text : String) : Rightly (Handler.fail text : Code α) := fun _ _ _ hkept _ _ => hkept

theorem choose : Rightly (Handler.choose : Code Answer) := fun _ _ _ hkept _ _ _ => hkept

theorem await : Rightly (Handler.await : Code Answer) := fun _ _ _ hkept _ _ _ _ _ => hkept

theorem set {queuedIntent : Option PendingIntent} (h : Retriable queuedIntent) :
    Rightly (Handler.set queuedIntent : Code Unit) := fun _ _ _ _ _ _ => h

theorem bind {f : α → Code β} (hx : Rightly x) (hf : ∀ a, Rightly (f a)) : Rightly (x >>= f) := by
  refine fun l queuedIntent g hkept => Handler.ensures_bind ((hx l queuedIntent g hkept).mono ?_)
  rintro ⟨result, queuedIntent'⟩ l' g' hkept'
  cases result with
  | ok a => exact hf a l' queuedIntent' g' hkept'
  | error text => exact fun _ _ => hkept'

theorem attempt (hx : Rightly x) : Rightly (Handler.attempt x) := by
  refine fun l queuedIntent g hkept => ((hx l queuedIntent g hkept).mono ?_).bind
  exact fun _ _ _ hkept' _ _ => hkept'

theorem demand (answer : Answer) : Rightly (demand answer) := by
  unfold Profiling.demand
  cases answer.failure with
  | none => exact pure ()
  | some text => exact fail text

theorem consult : Rightly consult :=
  choose.bind fun answer => (demand answer).bind fun _ => pure answer

theorem request : Rightly request :=
  await.bind fun answer => (demand answer).bind fun _ => pure answer

theorem updateDsGroupState : Rightly updateDsGroupState :=
  consult.bind fun _ => request.bind fun _ => pure ()

theorem publishEpochChange : Rightly publishEpochChange :=
  consult.bind fun _ => request.bind fun answer => pure answer.conflict

theorem rollbackIf (conflict : Bool) : Rightly (rollbackIf conflict) := by
  cases conflict with
  | false => exact pure ()
  | true => exact consult.bind fun _ => pure ()

end Rightly

/-- An operation on a thread that has the client's worker id and the context it is due to. -/
theorem RightlyFrom.operate (hsuits : context.Suits operation) (suppressed : Bool)
    (hf : ∀ answer, Rightly (f answer)) :
    RightlyFrom ⟨some client, some context⟩
      (Profiling.operate client operation context suppressed >>= f) := by
  intro queuedIntent g hkept answer g' _
  refine ⟨trivial, trivial, fun e he => ?_, hf answer _ queuedIntent g' hkept⟩
  cases suppressed with
  | true => cases he
  | false =>
    obtain ⟨span, -, rfl⟩ := List.mem_map.mp he
    exact carries_event hsuits span

/-- Setting the context of the thread first makes up for whatever was left there. -/
theorem Rightly.restored (hx : RightlyFrom ⟨some client, some context⟩ x) :
    Rightly (do
      setWorkerId client
      setBenchmarkContext context
      x) := by
  intro l queuedIntent g hkept g' _
  refine ⟨trivial, trivial, by simp, fun g'' _ => ⟨trivial, trivial, by simp, ?_⟩⟩
  exact hx queuedIntent g'' hkept

theorem Rightly.restoredOperate (hsuits : context.Suits operation) (suppressed : Bool)
    (hf : ∀ answer, Rightly (f answer)) :
    Rightly (do
      restoreProfilingContext client context
      let answer ← Profiling.operate client operation context suppressed
      f answer) :=
  Rightly.restored (RightlyFrom.operate hsuits suppressed hf)

namespace Rightly

variable {intent : PendingIntent} {again : Code Unit}

theorem tryStartIntent (hsuits : intent.benchmarkContext.Suits intent.operation) :
    Rightly (tryStartIntent client intent.benchmarkContext intent) := by
  refine restored (RightlyFrom.operate hsuits _ fun answer => ?_)
  refine (demand answer).bind fun _ => publishEpochChange.bind fun conflict => ?_
  exact (rollbackIf conflict).bind fun _ => pure conflict

theorem retriable_some (hsuits : intent.benchmarkContext.Suits intent.operation) :
    Retriable (some intent) := by
  intro queued hqueued
  cases hqueued
  exact hsuits

theorem retriable_none : Retriable none := by
  intro queued hqueued
  cases hqueued

theorem startOrQueue (intent : PendingIntent)
    (hsuits : intent.benchmarkContext.Suits intent.operation) :
    Rightly (startOrQueue client intent.benchmarkContext intent) := by
  refine (tryStartIntent hsuits).bind fun conflict => ?_
  cases conflict with
  | false => exact pure ()
  | true => exact set (retriable_some hsuits)

theorem retryIntent (hsuits : intent.benchmarkContext.Suits intent.operation) :
    Rightly (retryIntent client intent) := by
  refine (tryStartIntent hsuits).bind fun conflict => set ?_
  cases conflict with
  | false => exact retriable_none
  | true => exact retriable_some hsuits

theorem maybeRetryPendingIntent : Rightly (maybeRetryPendingIntent client) := by
  intro l queuedIntent g hkept
  cases queuedIntent with
  | none => exact fun _ _ => hkept
  | some intent => exact retryIntent (hkept intent rfl) l (some intent) g hkept

theorem publishWelcomes (welcome : Bool) : Rightly (publishWelcomes welcome) := by
  cases welcome with
  | false => exact pure ()
  | true => exact request.bind fun _ => pure ()

theorem commitApplied (answer : Answer) : Rightly (commitApplied client answer) := by
  unfold Profiling.commitApplied
  split
  · exact set retriable_none
  · split
    · exact (publishWelcomes _).bind fun _ => updateDsGroupState
    · exact updateDsGroupState.bind fun _ => maybeRetryPendingIntent

/-- Only an add commit replaces the benchmark operation. -/
theorem suits_of_ne (hcipher : context.ciphersuite = none) (hne : operation ≠ .addMembers) :
    context.Suits operation :=
  ⟨hcipher, fun hadd => absurd hadd hne⟩

theorem applyCommitBytes (hcipher : context.ciphersuite = none) :
    Rightly (applyCommitBytes client context) := by
  refine restoredOperate (suits_of_ne hcipher (by decide)) _ fun answer => ?_
  exact (demand answer).bind fun _ => commitApplied answer

theorem settleExpected (failure : String) : Rightly (settleExpected failure) := by
  refine choose.bind fun answer => ?_
  split
  · exact pure ()
  · exact fail failure

theorem unlessReached (hagain : Rightly again) : Rightly (unlessReached again) := by
  refine choose.bind fun answer => ?_
  split
  · exact pure ()
  · exact hagain

theorem ackStale (hagain : Rightly again) : Rightly (ackStale again) := by
  refine await.bind fun acked => ?_
  split
  · exact settleExpected _
  · exact unlessReached hagain

section

variable (hcipher : context.ciphersuite = none)
include hcipher

theorem applyDelivery (hagain : Rightly again) : Rightly (applyDelivery client context again) :=
  consult.bind fun _ => (applyCommitBytes hcipher).bind fun _ =>
    await.bind fun _ => unlessReached hagain

theorem receiveRounds (rounds : Nat) : Rightly (receiveRounds client context rounds) := by
  induction rounds with
  | zero => exact fail _
  | succ rounds ih =>
    refine await.bind fun delivery => ?_
    split
    · exact settleExpected _
    · split
      · exact ackStale ih
      · exact applyDelivery hcipher ih

theorem receiveCommitDelivery : Rightly (receiveCommitDelivery client context) :=
  choose.bind fun rounds => receiveRounds hcipher rounds.count

end

theorem ackMessage (answer : Answer) : Rightly (ackMessage answer) := by
  unfold Profiling.ackMessage
  split
  · exact await.bind fun _ => pure ()
  · exact demand answer

section

variable (hcipher : context.ciphersuite = none)
include hcipher

theorem receiveApplicationDelivery : Rightly (receiveApplicationDelivery client context) := by
  refine request.bind fun _ => consult.bind fun _ => ?_
  exact restoredOperate (suits_of_ne hcipher (by decide)) _ fun answer => ackMessage answer

theorem joinFromWelcome : Rightly (joinFromWelcome client context) :=
  restoredOperate (suits_of_ne hcipher (by decide)) _ fun answer => demand answer

theorem processCommits (pending remaining : Nat) :
    Rightly (processCommits client context pending remaining) := by
  induction pending generalizing remaining with
  | zero => exact pure remaining
  | succ pending ih =>
    refine consult.bind fun _ => (applyCommitBytes hcipher).attempt.bind fun result => ?_
    cases result with
    | ok _ => exact ih (remaining - 1)
    | error _ => exact pure remaining

theorem pendingWelcomesPhase (remaining : Nat) :
    Rightly (pendingWelcomesPhase client context remaining) := by
  refine await.bind fun answer => ?_
  split
  · exact pure remaining
  · exact (joinFromWelcome hcipher).bind fun _ => pure (remaining - 1)

end

theorem pendingPhase {kinds : List PendingKind} {kind : PendingKind} {phase : Nat → Code Nat}
    (hphase : ∀ remaining, Rightly (phase remaining)) (remaining : Nat) :
    Rightly (pendingPhase kinds kind phase remaining) := by
  unfold Profiling.pendingPhase
  split
  · exact hphase remaining
  · exact pure remaining

theorem processPending (hcipher : context.ciphersuite = none) (kinds : Option (List PendingKind))
    (maxMessages : Option Nat) : Rightly (processPending client kinds maxMessages context) := by
  refine (pendingPhase (fun remaining => ?_) _).bind fun remaining =>
    (pendingPhase (pendingWelcomesPhase hcipher) remaining).bind fun remaining =>
      (pendingPhase (fun remaining => ?_) remaining).bind fun _ => consult.bind fun _ => pure ()
  · exact request.bind fun _ => processCommits hcipher _ remaining
  · exact (receiveApplicationDelivery hcipher).attempt.bind fun _ => pure remaining

end Rightly

/-- The command works on the client before its first request. -/
def worksAtOnce : Command → Bool
  | .createGroup | .generateKeyPackage | .sendApplicationMessage _ => true
  | _ => false

def addsMembers : Command → Bool
  | .addMembers _ => true
  | _ => false

/-- The command of an envelope gets a context that its events can carry: no cipher suite, no
other benchmark operation than its own for an add commit, and where the command works on the
client at once, either nothing or something that announces a benchmark. -/
def Envelope.Announced (envelope : Envelope) : Prop :=
  envelope.fields.ciphersuite = none ∧
    (addsMembers envelope.command = true →
      envelope.fields.benchmarkOperation = none ∨
        envelope.fields.benchmarkOperation = some "add_commit") ∧
    (worksAtOnce envelope.command = true →
      envelope.hasBenchmarkContext = true ∨ envelope.fields = {})

instance (envelope : Envelope) : Decidable envelope.Announced :=
  inferInstanceAs (Decidable (_ ∧ (_ → _) ∧ (_ → _)))

/-- A command that works on the client at once does so with what was set when it was taken up. -/
theorem RightlyFrom.handleCommand {command : Command} (hcipher : context.ciphersuite = none)
    (hworks : worksAtOnce command = true) :
    RightlyFrom ⟨some client, some context⟩ (handleCommand client command context) := by
  cases command with
  | createGroup =>
    refine RightlyFrom.operate (Rightly.suits_of_ne hcipher (by decide)) _ fun answer => ?_
    exact (Rightly.demand answer).bind fun _ => Rightly.updateDsGroupState
  | generateKeyPackage =>
    refine RightlyFrom.operate (Rightly.suits_of_ne hcipher (by decide)) _ fun answer => ?_
    exact (Rightly.demand answer).bind fun _ => Rightly.request.bind fun _ => Rightly.pure ()
  | sendApplicationMessage message =>
    refine RightlyFrom.operate (Rightly.suits_of_ne hcipher (by decide)) _ fun answer => ?_
    exact (Rightly.demand answer).bind fun _ => Rightly.consult.bind fun _ =>
      Rightly.request.bind fun _ => Rightly.pure ()
  | _ => cases hworks

/-- All other commands set the context themselves. -/
theorem Rightly.handleCommand {command : Command} (hcipher : context.ciphersuite = none)
    (hadd : addsMembers command = true →
      context.benchmarkOperation = none ∨ context.benchmarkOperation = some "add_commit")
    (hworks : worksAtOnce command = false) : Rightly (handleCommand client command context) := by
  cases command with
  | createGroup | generateKeyPackage | sendApplicationMessage message => cases hworks
  | addMembers members =>
    exact request.bind fun fetched =>
      startOrQueue ⟨.addMembers members fetched.bodies, context⟩
        ⟨hcipher, fun _ => hadd rfl⟩
  | joinFromWelcome => exact request.bind fun _ => joinFromWelcome hcipher
  | receiveApplicationMessage => exact receiveApplicationDelivery hcipher
  | selfUpdate =>
    exact startOrQueue ⟨.selfUpdate, context⟩ (suits_of_ne hcipher nofun)
  | removeMembers members =>
    exact startOrQueue ⟨.removeMembers members, context⟩ (suits_of_ne hcipher nofun)
  | receiveCommit => exact receiveCommitDelivery hcipher
  | processPending kinds maxMessages expectedEpoch =>
    exact processPending hcipher kinds maxMessages
  | showGroupState => exact consult.bind fun _ => pure ()

theorem Rightly.clientCommandActor {envelope : Envelope} (h : envelope.Announced) :
    Rightly (clientCommandActor client envelope) := by
  obtain ⟨hcipher, hadd, hannounced⟩ := h
  have hcontext : envelope.benchmarkContext.ciphersuite = none := hcipher
  intro l queuedIntent g hkept g₁ _
  refine ⟨trivial, trivial, by simp, fun g₂ _ => ⟨trivial, trivial, by simp, ?_⟩⟩
  cases hworks : worksAtOnce envelope.command with
  | false =>
    have hhandle : Rightly (Profiling.handleCommand client envelope.command _) :=
      Rightly.handleCommand hcontext hadd hworks
    cases hhas : envelope.hasBenchmarkContext with
    | true =>
      simp only [if_true]
      exact fun g₃ _ => ⟨trivial, trivial, by simp, hhandle _ queuedIntent g₃ hkept⟩
    | false => exact hhandle _ queuedIntent g₂ hkept
  | true =>
    have hhandle : RightlyFrom ⟨some client, some envelope.benchmarkContext⟩ _ :=
      RightlyFrom.handleCommand hcontext hworks
    cases hhas : envelope.hasBenchmarkContext with
    | true =>
      simp only [if_true]
      exact fun g₃ _ => ⟨trivial, trivial, by simp, hhandle queuedIntent g₃ hkept⟩
    | false =>
      have hnothing : envelope.fields = {} :=
        (hannounced hworks).resolve_left (by rw [hhas]; exact Bool.false_ne_true)
      have hdefault : envelope.benchmarkContext = {} := by
        unfold Envelope.benchmarkContext
        rw [hnothing]
        rfl
      rw [hdefault] at hhandle ⊢
      exact hhandle queuedIntent g₂ hkept

/-- No client has a command. -/
def idle (locals : Nat → Locals) : Pool threading (Option PendingIntent) String :=
  ⟨locals, (), fun _ => none, fun _ => .resting none, []⟩

/-- Every command that is taken up is announced. -/
def Announces : Move threading String Envelope → Prop
  | .start _ _ envelope => envelope.Announced
  | _ => True

instance : DecidablePred Announces
  | .start _ _ envelope => inferInstanceAs (Decidable envelope.Announced)
  | .resume _ _ _ => instDecidableTrue
  | .step _ _ => instDecidableTrue

theorem begins_attribution :
    Pool.Begins attribution begin fun _ envelope => envelope.Announced := by
  intro client envelope queuedIntent l g hannounced hkept _ _
  refine ((Rightly.clientCommandActor hannounced l queuedIntent g hkept).mono ?_).bind
  exact fun _ _ _ hkept' _ _ => ⟨hkept', trivial⟩

theorem sound_idle (locals : Nat → Locals) : (idle locals).Sound attribution :=
  ⟨trivial, by simp [idle], fun _ => Rightly.retriable_none⟩

/-- Commands of any number of clients, taken up and gone on with on any threads, in any state of
these threads: every event carries the worker id of its client and the benchmark context of the
command, or of the queued intent that is retried. -/
theorem emission_carries_context (locals : Nat → Locals)
    (moves : List (Move threading String Envelope)) (hmoves : ∀ move ∈ moves, Announces move) :
    ∀ e ∈ (execute (Pool.step begin) (idle locals) moves).events, e.Carries := by
  have hadmitted : ∀ move ∈ moves, ∀ s : Pool threading (Option PendingIntent) String,
      s.Admitted attribution (fun _ envelope => envelope.Announced) move := by
    intro move hmem s
    have hmove := hmoves move hmem
    cases move with
    | start client thread envelope => exact ⟨trivial, hmove⟩
    | resume client thread answer => exact fun _ _ _ _ => trivial
    | step client answer => trivial
  exact ((sound_idle locals).of_guarded begins_attribution (guarded_of_forall hadmitted _)).good

/-- While a client waits for its welcome, another one generates a key package on the same
thread; the first one goes on there, and on another thread a third client works meanwhile. -/
abbrev sharedThreadMoves : List (Move threading String Envelope) :=
  [.start "alice" 0 ⟨.joinFromWelcome, { deviceKind := some "phone" }⟩] ++
  List.replicate 3 (.step "alice" {}) ++
  [.start "bob" 0 ⟨.generateKeyPackage, { benchmarkPhase := some "warmup" }⟩,
   .start "carol" 1 ⟨.createGroup, {}⟩] ++
  List.replicate 6 (.step "bob" { spans := [{}] }) ++
  List.replicate 2 (.step "carol" {}) ++
  [.resume "alice" 0 {}] ++
  List.replicate 4 (.step "alice" { spans := [{ deviceKind := some "server" }] }) ++
  List.replicate 3 (.step "carol" { spans := [{}] })

theorem emission_carries_context_shared_thread :
    (execute (Pool.step begin) (idle fun _ => {}) sharedThreadMoves).events.map (·.client) =
        ["bob", "alice", "carol"] ∧
      ∀ e ∈ (execute (Pool.step begin) (idle fun _ => {}) sharedThreadMoves).events,
        e.Carries := by
  exact ⟨by decide +kernel, emission_carries_context _ _ (by decide +kernel)⟩

/-- A command without phase, operation and plateau that works on the client at once: the device
kind of its request is not carried. -/
theorem emission_misses_device_kind :
    ∃ e ∈ (execute (Pool.step begin) (idle fun _ => {})
      (.start "alice" 0 ⟨.generateKeyPackage, { deviceKind := some "phone" }⟩ ::
        List.replicate 4 (.step "alice" { spans := [{}] }))).events,
      e.due.deviceKind = some "phone" ∧ e.event.columns.deviceKind = none ∧ ¬ e.Carries := by
  decide +kernel

end Attribution

end MessagingBench.Worker.Profiling
