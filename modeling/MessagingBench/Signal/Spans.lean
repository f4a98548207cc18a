import MessagingBench.Core.Traces
import MessagingBench.Signal.Profiling

/-!
# Whose events and spans they are

Worker id and open spans are set and read without regard to threads. They stay with their
command if it starts on a thread without open spans and always goes on on a thread that is as it
left it; a command that goes on elsewhere leaves its span behind and writes events of others.
-/

namespace MessagingBench.Signal.Profiling

open List

section Conduct

/-- A span of a command of a participant. -/
def Span.Of (span : Span) (participant : String) (number : Nat) : Prop :=
  span.participant = participant ∧ span.number = number

instance (span : Span) (participant : String) (number : Nat) :
    Decidable (span.Of participant number) := inferInstanceAs (Decidable (_ ∧ _))

/-- A command starts on a thread without open spans, goes on on a thread that is as it was left,
and opens only spans of its own. -/
def conduct : Conduct threading Nat String where
  wake := Eq
  rely _ _ := True
  good := Emission.Right
  valid _ := True
  valid_rely _ _ := trivial
  rely_refl _ := trivial
  rely_trans _ _ := trivial
  clean l := l.spanStack = []
  keeps _ _ := True
  touch participant number l l' :=
    ∀ span ∈ l'.spanStack, span ∈ l.spanStack ∨ span.Of participant number
  ends _ begun number := number = begun + 1
  keeps_of_ends _ := trivial

variable {scene : Scene} {l : Locals} {α β : Type}

/-- Nothing is written for the command. -/
def Scene.Silent (scene : Scene) : Prop :=
  scene.writer = false ∧ scene.path = false ∧ scene.context = false

/-- The thread is set up for the command, as far as something is written, and has only spans of
the command. -/
structure Traced (scene : Scene) (l : Locals) : Prop where
  named : scene.participant ≠ ""
  workerId : l.workerId = some scene.participant ∨ scene.Silent
  own : ∀ span ∈ l.spanStack, span.Of scene.participant scene.number

/-- The code writes right events and leaves everything on the thread as it was. -/
def Steady (scene : Scene) (x : Code α) : Prop :=
  ∀ l g, Traced scene l →
    (x scene.number).Ensures conduct.toDiscipline (conduct.touch scene.participant scene.number)
      (fun r l' _ => r.2 = scene.number ∧ l' = l) l g

namespace Steady

theorem pure (a : α) : Steady scene (Pure.pure a : Code α) := fun _ _ _ _ _ => ⟨rfl, rfl⟩

theorem fail (text : String) : Steady scene (Handler.fail text : Code α) :=
  fun _ _ _ _ _ => ⟨rfl, rfl⟩

theorem choose : Steady scene (Handler.choose : Code Answer) := fun _ _ _ _ _ _ => ⟨rfl, rfl⟩

/-- The thread is as it was left. -/
theorem await : Steady scene (Handler.await : Code Answer) :=
  fun _ _ _ _ hwake _ _ _ => ⟨rfl, hwake.symm⟩

variable {x : Code α}

theorem bind {f : α → Code β} (hx : Steady scene x)
    (hf : ∀ a, Steady scene (f a)) : Steady scene (x >>= f) := by
  refine fun l g htraced => Handler.ensures_bind ((hx l g htraced).mono ?_)
  rintro ⟨result, number⟩ l' g' ⟨rfl, rfl⟩
  cases result with
  | ok a => exact hf a l' g' htraced
  | error text => exact fun _ _ => ⟨rfl, rfl⟩

theorem attempt (hx : Steady scene x) : Steady scene (Handler.attempt x) := by
  refine fun l g htraced => ((hx l g htraced).mono ?_).bind
  exact fun _ _ _ hend _ _ => hend

theorem ite {c : Prop} [Decidable c] {y : Code α} (hx : Steady scene x) (hy : Steady scene y) :
    Steady scene (if c then x else y) := by
  split
  · exact hx
  · exact hy

theorem demand (answer : Answer) : Steady scene (demand answer) := by
  unfold Profiling.demand
  cases answer.failure with
  | none => exact pure ()
  | some text => exact fail text

theorem consult : Steady scene consult :=
  choose.bind fun answer => (demand answer).bind fun _ => pure answer

theorem request : Steady scene request :=
  await.bind fun answer => (demand answer).bind fun _ => pure answer

end Steady

/-- An action that keeps the thread as it is. -/
theorem touch_refl {l : Locals} : conduct.touch scene.participant scene.number l l :=
  fun _ hspan => .inl hspan

theorem Traced.push {id : UInt64} (h : Traced scene l) :
    Traced scene { l with spanStack := scene.span id :: l.spanStack } := by
  refine ⟨h.named, h.workerId, fun span hspan => ?_⟩
  rcases mem_cons.mp hspan with rfl | hspan
  · exact ⟨rfl, rfl⟩
  · exact h.own span hspan

variable (id : UInt64)

theorem touch_push : conduct.touch scene.participant scene.number l
    { l with spanStack := scene.span id :: l.spanStack } := by
  intro span hspan
  rcases mem_cons.mp hspan with rfl | hspan
  · exact .inr ⟨rfl, rfl⟩
  · exact .inl hspan

theorem touch_pop : conduct.touch scene.participant scene.number l
    { l with spanStack := l.spanStack.eraseP (·.id == id) } :=
  fun _ hspan => .inl (mem_of_mem_eraseP hspan)

/-- The span on the top is the one that is closed. -/
theorem pop_push : (scene.span id :: l.spanStack).eraseP (·.id == id) = l.spanStack := by
  rw [eraseP_cons_of_pos (by simp [Scene.span])]

theorem Traced.workerId_eq (h : Traced scene l)
    (hwritten : scene.writer = true ∨ scene.path = true ∨ scene.context = true) :
    l.workerId = some scene.participant := by
  refine h.workerId.resolve_right fun hsilent => ?_
  rcases hwritten with hwriter | hpath | hcontext
  · exact Bool.false_ne_true (hsilent.1.symm.trans hwriter)
  · exact Bool.false_ne_true (hsilent.2.1.symm.trans hpath)
  · exact Bool.false_ne_true (hsilent.2.2.symm.trans hcontext)

theorem right_emission {parent : Option Span}
    (hparent : ∀ span ∈ parent, span.Of scene.participant scene.number) :
    (scene.emission (some scene.participant) parent).Right :=
  ⟨rfl, hparent⟩

namespace Steady

theorem setWorkerId (hcontext : scene.context = true) :
    Steady scene (setWorkerId scene.participant) := by
  intro l g htraced g' _
  refine ⟨trivial, fun _ hspan => .inl hspan, by simp, fun _ _ => ⟨rfl, ?_⟩⟩
  rw [← htraced.workerId_eq (.inr (.inr hcontext))]

theorem installProfileContext : Steady scene (installProfileContext scene) := by
  unfold Profiling.installProfileContext
  split
  · rename_i hboth
    exact setWorkerId (Bool.and_eq_true_iff.mp hboth).2
  · exact pure ()

theorem setContext : Steady scene (setContext scene) := by
  unfold Profiling.setContext
  split
  · rename_i hcontext
    exact setWorkerId hcontext
  · exact pure ()

theorem writeSubspan {path : Bool} {parent : Option Span} (hpath : path = true → scene.path = true)
    (hparent : ∀ span ∈ parent, span.Of scene.participant scene.number) :
    Steady scene (writeSubspan scene path parent) := by
  have hwrite : ∀ workerId, (path = true → workerId = some scene.participant) →
      Steady scene (if path = true then write (scene.emission workerId parent)
        else Pure.pure ()) := by
    intro workerId hworker
    split
    · rename_i hwritten
      intro l g htraced g' _
      refine ⟨trivial, touch_refl, ?_, fun _ _ => ⟨rfl, rfl⟩⟩
      rw [hworker hwritten]
      intro e he
      cases mem_singleton.mp he
      exact right_emission hparent
    · exact pure ()
  intro l g htraced
  unfold Profiling.writeSubspan eventWorkerId
  cases hcontext : scene.context with
  | true => exact hwrite (some scene.participant) (fun _ => rfl) l g htraced
  | false =>
    intro g' _
    refine ⟨trivial, touch_refl, by simp, hwrite l.workerId (fun hwritten => ?_) l g' htraced⟩
    exact htraced.workerId_eq (.inr (.inl (hpath hwritten)))

theorem subspan : Steady scene (subspan scene) :=
  writeSubspan id fun _ hspan => by cases hspan

theorem timedRequest : Steady scene (timedRequest scene) := request.bind fun _ => subspan

/-- A scope closes the span that it opened, so that the thread is as before. -/
theorem measureScope {body : Code Unit} (hwriter : scene.writer = true)
    (hbody : Steady scene body) : Steady scene (measureScope scene body) := by
  intro l g htraced g₁ _
  refine ⟨trivial, touch_refl, by simp, fun g₂ _ => ⟨trivial, touch_refl, by simp, ?_⟩⟩
  refine fun g₃ _ => ⟨trivial, touch_push g₁, by simp, ?_⟩
  refine Handler.ensures_attempt_bind ((hbody _ g₃ htraced.push).mono ?_)
  rintro ⟨result, number⟩ l' g₄ ⟨rfl, rfl⟩ g₅ _
  refine ⟨trivial, touch_pop g₁, by simp, fun g₆ _ => ⟨trivial, touch_refl, by simp, ?_⟩⟩
  refine fun g₇ _ => ⟨trivial, touch_refl, ?_, fun _ _ => ⟨rfl, ?_⟩⟩
  · intro e he
    cases mem_singleton.mp he
    have hworker : l.workerId.filter (· != "") = some scene.participant := by
      rw [htraced.workerId_eq (.inl hwriter)]
      simp [htraced.named]
    simp only
    rw [hworker]
    exact right_emission fun span hspan => htraced.own span (mem_of_mem_head? hspan)
  · simp only [pop_push]

theorem scopes (hwriter : scene.writer = true) (depth : Nat) :
    Steady scene (scopes scene depth) := by
  induction depth with
  | zero => exact pure ()
  | succ depth ih =>
    exact choose.bind fun another => ite ((measureScope hwriter ih).bind fun _ => ih) (pure ())

theorem operation : Steady scene (operation scene) := by
  refine choose.bind fun answer => ?_
  split
  · rename_i hwriter
    exact scopes hwriter answer.count
  · exact pure ()

variable {x : Code α}

theorem installed (hx : Steady scene x) :
    Steady scene (do
      Profiling.installProfileContext scene
      Profiling.operation scene
      x) :=
  installProfileContext.bind fun _ => operation.bind fun _ => hx

theorem generatePrekeyBundle : Steady scene (generatePrekeyBundle scene) :=
  installed (consult.bind fun _ => timedRequest.bind fun _ => timedRequest.bind fun _ =>
    timedRequest)

theorem publishPrekeyBundle : Steady scene (publishPrekeyBundle scene) :=
  installed (consult.bind fun _ => pure ())

theorem refillPrekeys : Steady scene (refillPrekeys scene) :=
  installed (consult.bind fun _ => request.bind fun _ => request.bind fun _ => pure ())

theorem updateOneTimePrekeys : Steady scene (updateOneTimePrekeys scene) :=
  request.bind fun _ => ite (pure ()) refillPrekeys

theorem processBundle : Steady scene (processBundle scene) :=
  consult.bind fun _ => installed (consult.bind fun _ => subspan.bind fun _ =>
    await.bind fun _ => subspan)

theorem establishSession : Steady scene (establishSession scene) :=
  installed (choose.bind fun _ => ite (pure ()) (timedRequest.bind fun _ => processBundle))

theorem establishSessions (peers : List String) : Steady scene (establishSessions scene peers) := by
  induction peers with
  | nil => exact pure ()
  | cons peer peers ih => exact establishSession.bind fun _ => ih

theorem encryptMessage : Steady scene (encryptMessage scene) :=
  installed (consult.bind fun _ => subspan.bind fun _ => timedRequest.bind fun _ => subspan)

variable (profile : Bool)

theorem decrypt : Steady scene (decrypt scene profile) :=
  ite (installProfileContext.bind fun _ => operation) operation

theorem messageDecrypted : Steady scene (messageDecrypted scene) :=
  consult.bind fun _ => subspan.bind fun _ => timedRequest.bind fun _ => subspan

theorem decryptFailed (text : String) : Steady scene (decryptFailed scene text) :=
  choose.bind fun _ => ite timedRequest (fail text)

theorem decryptDelivery : Steady scene (decryptDelivery scene profile) := by
  refine (decrypt profile).bind fun _ => choose.bind fun answer => ?_
  split
  · exact messageDecrypted
  · exact decryptFailed _

theorem receiveMessageDelivery : Steady scene (receiveMessageDelivery scene profile) :=
  request.bind fun _ => consult.bind fun _ => subspan.bind fun _ => consult.bind fun _ =>
    ite (decryptDelivery profile) timedRequest

theorem receiveMessages (rounds : Nat) : Steady scene (receiveMessages scene rounds) := by
  induction rounds with
  | zero => exact pure ()
  | succ rounds ih =>
    refine (receiveMessageDelivery true).attempt.bind fun result => ?_
    cases result with
    | ok _ => exact ih
    | error _ => exact pure ()

/-- Without the benchmark context less is written. -/
theorem of_contextless (hx : Steady { scene with context := false } x) : Steady scene x := by
  intro l g htraced
  refine hx l g ⟨htraced.named, htraced.workerId.imp id fun hsilent => ?_, htraced.own⟩
  exact ⟨hsilent.1, hsilent.2.1, rfl⟩

theorem processPending (maxMessages : Option Nat) :
    Steady scene (processPending scene maxMessages) :=
  choose.bind fun _ => (of_contextless (receiveMessages _)).bind fun _ =>
    consult.bind fun _ => pure ()

end Steady

/-- The spans of the work are spans of the command. -/
structure LocalWork.Own (scene : Scene) (work : LocalWork) : Prop where
  span : ∃ id, work.span = scene.span id
  parent : ∀ span ∈ work.parent, span.Of scene.participant scene.number
  path : work.path = true → scene.path = true

namespace Steady

variable {work : LocalWork}

theorem withWork {path : Bool} (hpath : path = true → scene.path = true) {f : LocalWork → Code α}
    (hf : ∀ work, work.Own scene → Steady scene (f work)) :
    Steady scene (LocalWork.new scene path >>= f) := by
  intro l g htraced g₁ _
  refine ⟨trivial, touch_refl, by simp, fun g₂ _ => ⟨trivial, touch_refl, by simp, ?_⟩⟩
  refine hf _ ⟨⟨_, rfl⟩, fun span hspan => ?_, hpath⟩ l g₂ htraced
  exact htraced.own span (mem_of_mem_head? hspan)

section

variable (hwork : work.Own scene)
include hwork

/-- A piece of the work closes the span of the work again. -/
theorem measure : Steady scene (work.measure scene) := by
  obtain ⟨id, hspan⟩ := hwork.span
  refine setContext.bind fun _ => ?_
  intro l g htraced g₁ _
  rw [hspan]
  refine ⟨trivial, touch_push id, by simp, ?_⟩
  refine Handler.ensures_attempt_bind ((operation _ g₁ htraced.push).mono ?_)
  rintro ⟨result, number⟩ l' g₂ ⟨rfl, rfl⟩ g₃ _
  refine ⟨trivial, touch_pop id, by simp, fun g₄ _ => ⟨trivial, touch_refl, by simp, ?_⟩⟩
  have hrest : Steady scene (do
      Profiling.writeSubspan scene work.path (some (scene.span id))
      let _ ← Profiling.consult
      Pure.pure ()) := by
    refine (writeSubspan hwork.path fun span hmem => ?_).bind fun _ => consult.bind fun _ => pure ()
    cases hmem
    exact ⟨rfl, rfl⟩
  simp only [Scene.span_id, pop_push]
  exact hrest l _ htraced

theorem finish : Steady scene (work.finish scene) :=
  writeSubspan hwork.path hwork.parent

theorem distributeTo (recipients : List String) :
    Steady scene (distributeTo scene work recipients) := by
  induction recipients with
  | nil => exact pure ()
  | cons recipient recipients ih =>
    exact (measure hwork).bind fun _ => request.bind fun _ => ih

theorem distribute (recipients : List String) : Steady scene (distribute scene work recipients) :=
  (measure hwork).bind fun _ => distributeTo hwork recipients

theorem processDistribution : Steady scene (processDistribution scene work) :=
  (measure hwork).bind fun _ => request.bind fun _ => pure ()

theorem takeDistribution {again : Code Unit}
    (hagain : Steady scene again) : Steady scene (takeDistribution scene work again) :=
  consult.bind fun _ => (measure hwork).bind fun _ => consult.bind fun _ =>
    ite (request.bind fun _ => hagain) (processDistribution hwork)

theorem receiveRounds (rounds : Nat) : Steady scene (receiveRounds scene work rounds) := by
  induction rounds with
  | zero => exact fail _
  | succ rounds ih =>
    exact request.bind fun _ => ite (request.bind fun _ => ih) (takeDistribution hwork ih)

theorem receiveDistribution : Steady scene (receiveDistribution scene work) :=
  choose.bind fun rounds => receiveRounds hwork rounds.count

theorem receiveDistributions (senders : List String) :
    Steady scene (receiveDistributions scene work senders) := by
  induction senders with
  | nil => exact pure ()
  | cons sender senders ih => exact (receiveDistribution hwork).bind fun _ => ih

theorem resetSenderKeys (phase : Option String) : Steady scene (resetSenderKeys scene phase work) :=
  ite (measure hwork) (pure ())

end

theorem handleCommand (phase : Option String) (command : Command) :
    Steady scene (handleCommand scene phase command) := by
  cases command with
  | senderKeyDistribute recipients =>
    exact withWork id fun work hwork => (resetSenderKeys hwork phase).bind fun _ =>
      (distribute hwork recipients).bind fun _ => finish hwork
  | senderKeyOnboard participants =>
    exact withWork id fun work hwork => (measure hwork).bind fun _ =>
      (receiveDistributions hwork participants).bind fun _ =>
        (distribute hwork participants).bind fun _ => finish hwork
  | senderKeyReceiveDistribution =>
    exact withWork id fun work hwork => (receiveDistribution hwork).bind fun _ => finish hwork
  | senderKeyEncrypt =>
    exact withWork id fun work hwork => (measure hwork).bind fun _ =>
      request.bind fun _ => finish hwork
  | senderKeyDecrypt profile =>
    refine withWork (fun hboth => (Bool.and_eq_true_iff.mp hboth).2) fun work hwork => ?_
    exact request.bind fun _ => consult.bind fun _ => (measure hwork).bind fun _ =>
      consult.bind fun _ => request.bind fun _ => finish hwork
  | generatePrekeyBundle => exact generatePrekeyBundle
  | publishPrekeyBundle => exact publishPrekeyBundle
  | updateOneTimePrekeys => exact updateOneTimePrekeys
  | establishSessions participants profile => exact establishSessions participants
  | encryptMessage => exact encryptMessage
  | decryptMessage profile => exact receiveMessageDelivery profile
  | processPending maxMessages => exact processPending maxMessages
  | registerParticipant | resetSessions | showParticipantState | removeParticipants => exact pure ()

theorem writeWrapper : Steady scene (writeWrapper scene) := by
  unfold Profiling.writeWrapper
  split
  · rename_i hpath
    intro l g htraced g₁ _
    refine ⟨trivial, touch_refl, by simp, fun g₂ _ => ⟨trivial, touch_refl, ?_, ?_⟩⟩
    · intro e he
      cases mem_singleton.mp he
      simp only
      rw [htraced.workerId_eq (.inr (.inl hpath))]
      exact right_emission fun span hspan => by cases hspan
    · exact fun _ _ => ⟨rfl, rfl⟩
  · exact pure ()

variable (envelope : Envelope)

/-- The span around the command is closed at the end. -/
theorem handleProfiled : Steady scene (handleProfiled scene envelope) := by
  intro l g htraced g₁ _
  refine ⟨trivial, touch_refl, by simp, fun g₂ _ => ⟨trivial, touch_push g₁, by simp, ?_⟩⟩
  refine Handler.ensures_attempt_bind ((handleCommand _ _ _ g₂ htraced.push).mono ?_)
  rintro ⟨result, number⟩ l' g₃ ⟨rfl, rfl⟩
  refine Handler.ensures_attempt_bind ((writeWrapper _ g₃ htraced.push).mono ?_)
  rintro ⟨result', number'⟩ l'' g₄ ⟨rfl, rfl⟩ g₅ _
  refine ⟨trivial, touch_pop g₁, by simp, fun _ _ => ⟨rfl, ?_⟩⟩
  simp only [pop_push]

theorem handleUnprofiled : Steady scene (handleUnprofiled scene envelope) :=
  (handleCommand _ _).attempt.bind fun _ => pure ()

theorem handleEnvelope (setup : Setup) (envelope : Envelope) :
    Steady scene (handleEnvelope scene setup envelope) :=
  ite (handleProfiled envelope) (handleUnprofiled envelope)

end Steady

/-- Either the actor sets the worker id of the participant, or nothing is written at all. -/
def Setup.Attributes (setup : Setup) (participant : String) : Prop :=
  participant ≠ "" ∧ (setup.profileEnabled participant = true ∨ setup.writer = false)

instance (setup : Setup) (participant : String) : Decidable (setup.Attributes participant) :=
  inferInstanceAs (Decidable (_ ∧ (_ ∨ _)))

variable {setup : Setup} {participant : String} {envelope : Envelope} {number : Nat} {g : UInt64}

theorem silent_of_disabled (hdisabled : setup.profileEnabled participant = false)
    (hwriter : setup.writer = false) (number : Nat) :
    (setup.sceneOf participant envelope number).Silent := by
  have hthis : setup.profileThisCommand participant envelope = false := by
    rw [Setup.profileThisCommand, hdisabled, Bool.false_and]
  refine ⟨hwriter, ?_, ?_⟩
  · simp only [Setup.sceneOf, hthis, Bool.false_and]
  · simp only [Setup.sceneOf, hthis, Bool.false_and]

/-- The code ends the command and leaves a thread without open spans. -/
def Completes (participant : String) (number : Nat) (x : Code α) (l : Locals) (g : UInt64) : Prop :=
  (x number).Ensures conduct.toDiscipline (conduct.touch participant number)
    (fun r l' _ => r.2 = number + 1 ∧ l'.spanStack = []) l g

theorem completes_handled
    (htraced : Traced (setup.sceneOf participant envelope number) l) (hempty : l.spanStack = []) :
    Completes participant number (do
      let _ ← Handler.attempt
        (handleEnvelope (setup.sceneOf participant envelope number) setup envelope)
      Handler.set (number + 1)) l g := by
  refine Handler.ensures_attempt_bind ((Steady.handleEnvelope setup envelope l g htraced).mono ?_)
  rintro ⟨result, number'⟩ l' g' ⟨-, rfl⟩
  exact fun _ _ => ⟨rfl, hempty⟩

theorem completes_actor (hattributes : setup.Attributes participant) (hempty : l.spanStack = []) :
    Completes participant number (participantCommandActor setup participant envelope) l g := by
  have hown : ∀ span ∈ l.spanStack, span.Of participant number := by
    intro span hspan
    rw [hempty] at hspan
    cases hspan
  unfold Completes participantCommandActor setParticipant
  cases henabled : setup.profileEnabled participant with
  | true =>
    intro g' _
    refine ⟨trivial, fun _ hspan => .inl hspan, by simp, ?_⟩
    exact completes_handled ⟨hattributes.1, .inl rfl, hown⟩ hempty
  | false =>
    have hwriter := hattributes.2.resolve_left (by rw [henabled]; exact Bool.false_ne_true)
    exact completes_handled
      ⟨hattributes.1, .inr (silent_of_disabled henabled hwriter number), hown⟩ hempty

/-- Every command of such a participant conducts itself. -/
theorem begins_conduct {setup : Setup} :
    Pool.Begins conduct (begin setup) fun participant _ => setup.Attributes participant := by
  intro participant envelope number l g hattributes _ hclean _
  have hactor : Completes participant number
      (participantCommandActor setup participant envelope) l g :=
    completes_actor hattributes hclean
  exact (hactor.mono fun _ _ _ hend _ _ => hend).bind

/-- The open spans on a thread, by command. -/
def openSpans : Pool.Traces conduct where
  has l participant number := ∃ span ∈ l.spanStack, span.Of participant number
  of_touch := by
    rintro participant number l l' participant' number' htouch ⟨span, hspan, hof⟩
    rcases htouch span hspan with hold | hnew
    · exact .inl ⟨span, hold, hof⟩
    · exact .inr ⟨hof.1.symm.trans hnew.1, hof.2.symm.trans hnew.2⟩
  not_clean := by
    rintro l participant number hclean ⟨span, hspan, -⟩
    rw [show l.spanStack = [] from hclean] at hspan
    cases hspan
  of_wake := by
    rintro l l' participant number rfl
    exact Iff.rfl

end Conduct

section Runs

variable (setup : Setup)

/-- No participant has a command, and all threads are fresh. -/
def idle : Pool threading Nat String :=
  ⟨fun _ => {}, 1, fun _ => none, fun _ => .resting 0, []⟩

/-- A command of a participant to whom events can be attributed starts on a thread without open
spans, and goes on on a thread that has the worker id and the open spans with which it left its
thread. -/
def Undisturbed (s : Pool threading Nat String) : Move threading String Envelope → Prop
  | .start participant thread _ =>
    (s.locals thread).spanStack = [] ∧ setup.Attributes participant
  | .resume participant thread _ =>
    match s.tasks participant with
    | .waiting _ left _ => left = s.locals thread
    | _ => True
  | .step _ _ => True

theorem admitted_of_undisturbed {s : Pool threading Nat String}
    {move : Move threading String Envelope} (h : Undisturbed setup s move) :
    s.Admitted conduct (fun participant _ => setup.Attributes participant) move := by
  cases move with
  | start participant thread envelope => exact h
  | resume participant thread answer =>
    intro begun left next htask
    simp only [Undisturbed, htask] at h
    exact h
  | step participant answer => trivial

theorem tidy_idle : idle.Tidy openSpans := by
  refine ⟨⟨trivial, by simp [idle], fun _ => trivial⟩, ?_⟩
  rintro participant thread number ⟨span, hspan, -⟩
  cases hspan

/-- In every undisturbed run every event carries the worker id of the participant whose command
wrote it and names only spans of that command as parents; and once a command is finished, no span
of it is on the stack of any thread. -/
theorem events_attributed (before after : List (Move threading String Envelope))
    (hrun : Guarded (Pool.step (begin setup)) (Undisturbed setup) idle (before ++ after)) :
    (∀ e ∈ (execute (Pool.step (begin setup)) idle (before ++ after)).events, e.Right) ∧
      ∀ participant handled number,
        (execute (Pool.step (begin setup)) idle before).tasks participant = .resting handled →
        number < handled → ∀ thread,
        ∀ span ∈ ((execute (Pool.step (begin setup)) idle (before ++ after)).locals
          thread).spanStack, ¬ span.Of participant number := by
  have hguarded : Guarded (Pool.step (begin setup)) (Pool.Admitted conduct
      fun participant _ => setup.Attributes participant) idle (before ++ after) :=
    Guarded.transfer (fun _ _ _ hst _ => hst ▸ rfl)
      (fun _ _ _ hst hmove => hst ▸ admitted_of_undisturbed setup hmove) rfl hrun
  refine ⟨(tidy_idle.sound.of_guarded begins_conduct hguarded).good, ?_⟩
  intro participant handled number hresting hfinished thread span hspan hof
  obtain ⟨hbefore, hafter⟩ := (guarded_append _ _ _ _ _).mp hguarded
  have htidy := tidy_idle.of_guarded begins_conduct hbefore
  have hsince : Pool.Since (handled ≤ ·)
      ((execute (Pool.step (begin setup)) idle before).tasks participant) := by
    rw [hresting]
    exact Nat.le_refl handled
  rw [execute_append] at hspan
  have hlater : handled ≤ number := htidy.since begins_conduct
    (fun _ _ hbegun hends => hends ▸ Nat.le_succ_of_le hbegun) hsince hafter ⟨span, hspan, hof⟩
  exact absurd hfinished (Nat.not_lt.mpr hlater)

/-- All participants are profiled, and the protocol library writes its spans. -/
abbrev profiledSetup : Setup := ⟨true, false, fun _ => true, fun _ => true⟩

/-- One participant sends a message, and while it waits another one works on the next thread. -/
abbrev besideMoves : List (Move threading String Envelope) :=
  [.start "alice" 0 { command := .encryptMessage }] ++
  replicate 15 (.step "alice" { decision := true, count := 1 }) ++
  [.start "bob" 1 { command := .senderKeyEncrypt }] ++
  replicate 13 (.step "bob" {}) ++
  [.resume "alice" 0 {}] ++
  replicate 8 (.step "alice" {})

/-- The first participant goes on with another command while the other one still waits. -/
abbrev againMoves : List (Move threading String Envelope) :=
  [.start "alice" 0 { command := .publishPrekeyBundle }] ++
  replicate 9 (.step "alice" {})

instance (s : Pool threading Nat String) (move : Move threading String Envelope) :
    Decidable (Undisturbed setup s move) :=
  match move with
  | .start participant thread _ =>
    inferInstanceAs (Decidable ((s.locals thread).spanStack = [] ∧ setup.Attributes participant))
  | .resume participant thread _ =>
    match h : s.tasks participant with
    | .waiting _ left _ => decidable_of_iff (left = s.locals thread) (by simp [Undisturbed, h])
    | .resting _ => isTrue (by simp [Undisturbed, h])
    | .running _ _ _ => isTrue (by simp [Undisturbed, h])
  | .step _ _ => isTrue trivial

theorem events_attributed_beside :
    ((execute (Pool.step (begin profiledSetup)) idle (besideMoves ++ againMoves)).events.map
        fun e => (e.participant, e.number)) =
        [("alice", 0), ("alice", 0), ("bob", 0), ("alice", 0), ("alice", 0), ("alice", 0),
          ("alice", 1)] ∧
      (∀ e ∈ (execute (Pool.step (begin profiledSetup)) idle (besideMoves ++ againMoves)).events,
        e.Right) ∧
      ∀ thread, ∀ span ∈ ((execute (Pool.step (begin profiledSetup)) idle
        (besideMoves ++ againMoves)).locals thread).spanStack, ¬ span.Of "alice" 0 := by
  have h := events_attributed profiledSetup besideMoves againMoves (by decide +kernel)
  exact ⟨by decide +kernel, h.1, h.2 "alice" 1 0 (by rfl) (by decide)⟩

/-- A command that waits on one thread goes on on another one; then another participant's command,
which is not profiled itself, works on the first thread. -/
abbrev migratingMoves : List (Move threading String Envelope) :=
  [.start "alice" 0 { command := .encryptMessage }] ++
  replicate 8 (.step "alice" {}) ++
  [.resume "alice" 1 {}] ++
  replicate 8 (.step "alice" {}) ++
  [.start "bob" 0 { command := .establishSessions ["carol"] false }] ++
  replicate 9 (.step "bob" { decision := true, count := 1 })

/-- The event of the whole command has no worker id, the span of the command is still on the stack
of its first thread, and another participant's event names it as its parent. -/
theorem migrated_command_misattributed :
    (∃ e ∈ (execute (Pool.step (begin profiledSetup)) idle migratingMoves).events,
        e.participant = "alice" ∧ e.workerId = none) ∧
      (∃ e ∈ (execute (Pool.step (begin profiledSetup)) idle migratingMoves).events,
        e.participant = "bob" ∧ ∃ span ∈ e.parent, span.Of "alice" 0) ∧
      (∃ span ∈ ((execute (Pool.step (begin profiledSetup)) idle migratingMoves).locals
        0).spanStack, span.Of "alice" 0) ∧
      (execute (Pool.step (begin profiledSetup)) idle migratingMoves).tasks "alice" =
        .resting 1 := by
  refine ⟨by decide +kernel, by decide +kernel, by decide +kernel, rfl⟩

end Runs

end MessagingBench.Signal.Profiling
