import MessagingBench.Core.Run
import MessagingBench.Signal.KeyRepository

/-!
# The queues of the key repository as a function of its history

Every upload takes a queue apart and puts it together again, and a consumption looks at the
front bundle only. Over whole histories this amounts to a simple account for each
participant since its last removal: the one-time bundles in the order of their uploads
without the consumed ones, and then the latest fallback.
-/

namespace MessagingBench.Signal.Prekeys

open List Function

variable {ι : Type} [DecidableEq ι]

inductive Operation (ι : Type)
  | publishPrekeyBundleBatch (participant : ι) (batch : PrekeyBundleBatchStorable)
  | fetchPrekeyBundle (participant : ι)
  | consumeOneTimePrekey (participant : ι)
  | prekeyStock (participant : ι)
  | removeParticipant (participant : ι)
  deriving DecidableEq, Repr

def KeyRepository.step (repository : KeyRepository ι) : Operation ι → KeyRepository ι
  | .publishPrekeyBundleBatch participant batch =>
    repository.publishPrekeyBundleBatch participant batch
  | .fetchPrekeyBundle _ => repository
  | .consumeOneTimePrekey participant => (repository.consumeOneTimePrekey participant).2
  | .prekeyStock _ => repository
  | .removeParticipant participant => repository.removeParticipant participant

section Account

/-- An operation of a history and whether it succeeded; only a consumption can fail. -/
structure Entry (ι : Type) where
  operation : Operation ι
  succeeded : Bool

def KeyRepository.entry (repository : KeyRepository ι) (operation : Operation ι) : Entry ι where
  operation := operation
  succeeded :=
    match operation with
    | .consumeOneTimePrekey participant => (repository.consumeOneTimePrekey participant).1
    | _ => true

/-- The history of a run from a repository. -/
def KeyRepository.record (repository : KeyRepository ι) : List (Operation ι) → List (Entry ι)
  | [] => []
  | operation :: operations =>
    repository.entry operation :: (repository.step operation).record operations

namespace Entry

variable (participant : ι)

def removes (entry : Entry ι) : Bool :=
  entry.operation == .removeParticipant participant

/-- The one-time bundles that an operation uploads for a participant. -/
def published (entry : Entry ι) : List PrekeyBundleStorable :=
  match entry.operation with
  | .publishPrekeyBundleBatch owner batch =>
    if owner = participant then batch.oneTimePrekeys.map batch.oneTimeBundle else []
  | _ => []

/-- The fallback that an operation uploads for a participant. -/
def fallbacks (entry : Entry ι) : List PrekeyBundleStorable :=
  match entry.operation with
  | .publishPrekeyBundleBatch owner batch =>
    if owner = participant ∧ batch.signedPrekeyFallback = true then [batch.fallbackBundle] else []
  | _ => []

def consumes (entry : Entry ι) : Bool :=
  entry.operation == .consumeOneTimePrekey participant && entry.succeeded

end Entry

variable (participant : ι)

def sinceRemoval (history : List (Entry ι)) : List (Entry ι) :=
  history.foldl (fun since entry => if entry.removes participant then [] else since ++ [entry]) []

def publishedBundles (history : List (Entry ι)) : List PrekeyBundleStorable :=
  (sinceRemoval participant history).flatMap (Entry.published participant)

def latestFallback (history : List (Entry ι)) : Option PrekeyBundleStorable :=
  ((sinceRemoval participant history).flatMap (Entry.fallbacks participant)).getLast?

def consumedCount (history : List (Entry ι)) : Nat :=
  (sinceRemoval participant history).countP (Entry.consumes participant)

/-- The one-time bundles of a participant that are not yet consumed, oldest first. -/
def availableBundles (history : List (Entry ι)) : List PrekeyBundleStorable :=
  (publishedBundles participant history).drop (consumedCount participant history)

end Account

section Steps

variable {participant : ι} {repository : KeyRepository ι} {history : List (Entry ι)}

theorem sinceRemoval_append (participant : ι) (history : List (Entry ι)) (entry : Entry ι) :
    sinceRemoval participant (history ++ [entry]) =
      if entry.removes participant then [] else sinceRemoval participant history ++ [entry] := by
  simp [sinceRemoval]

section Append

variable {entry : Entry ι} (hremoves : entry.removes participant = false)

include hremoves

theorem sinceRemoval_append_of_keeps :
    sinceRemoval participant (history ++ [entry]) =
      sinceRemoval participant history ++ [entry] := by
  rw [sinceRemoval_append, hremoves]
  rfl

theorem publishedBundles_append : publishedBundles participant (history ++ [entry]) =
    publishedBundles participant history ++ entry.published participant := by
  simp [publishedBundles, sinceRemoval_append_of_keeps hremoves]

theorem latestFallback_append : latestFallback participant (history ++ [entry]) =
    (entry.fallbacks participant).getLast?.or (latestFallback participant history) := by
  simp [latestFallback, sinceRemoval_append_of_keeps hremoves, getLast?_append]

theorem consumedCount_append : consumedCount participant (history ++ [entry]) =
    consumedCount participant history + if entry.consumes participant then 1 else 0 := by
  simp [consumedCount, sinceRemoval_append_of_keeps hremoves, countP_singleton]

end Append

variable {published : List PrekeyBundleStorable} {latest : Option PrekeyBundleStorable}
  {consumed : Nat}

/-- The queue and the counter of a participant are what uploads and consumptions come to. -/
structure Accounted (participant : ι) (repository : KeyRepository ι)
    (published : List PrekeyBundleStorable) (latest : Option PrekeyBundleStorable)
    (consumed : Nat) : Prop where
  queue : repository.prekeyBundles participant = published.drop consumed ++ latest.toList
  one_time : ∀ bundle ∈ published, bundle.isOneTime = true
  fallback : ∀ bundle ∈ latest, bundle.isOneTime = false
  enough : consumed ≤ published.length
  counter : repository.oneTimePrekeyConsumption participant = .ofNat consumed

/-- The account that the history of a participant gives. -/
abbrev AccountedBy (participant : ι) (repository : KeyRepository ι) (history : List (Entry ι)) :
    Prop :=
  Accounted participant repository (publishedBundles participant history)
    (latestFallback participant history) (consumedCount participant history)

namespace Accounted

theorem remove (participant : ι) (repository : KeyRepository ι) :
    Accounted participant (repository.removeParticipant participant) [] none 0 := by
  constructor <;> simp [KeyRepository.removeParticipant]

variable (h : Accounted participant repository published latest consumed)

include h

section Queue

omit [DecidableEq ι]

theorem available_one_time : ∀ bundle ∈ published.drop consumed, bundle.isOneTime = true :=
  fun bundle hbundle => h.one_time bundle (mem_of_mem_drop hbundle)

theorem oneTimeBundles_queue :
    oneTimeBundles (repository.prekeyBundles participant) = published.drop consumed := by
  have hfallback : oneTimeBundles latest.toList = [] := by
    apply filter_eq_nil_iff.mpr
    intro bundle hbundle
    rw [h.fallback bundle (Option.mem_toList.mp hbundle)]
    exact Bool.false_ne_true
  rw [h.queue, oneTimeBundles_append, hfallback, append_nil]
  exact filter_eq_self.mpr h.available_one_time

theorem fallbacks_queue :
    (repository.prekeyBundles participant).filter (fun bundle => !bundle.isOneTime) =
      latest.toList := by
  have havailable : (published.drop consumed).filter (fun bundle => !bundle.isOneTime) = [] := by
    apply filter_eq_nil_iff.mpr
    intro bundle hbundle
    simp [h.available_one_time bundle hbundle]
  rw [h.queue, filter_append, havailable, nil_append]
  apply filter_eq_self.mpr
  intro bundle hbundle
  simp [h.fallback bundle (Option.mem_toList.mp hbundle)]

/-- An operation that concerns others leaves the account of a participant alone. -/
theorem other {repository' : KeyRepository ι}
    (hqueue : repository'.prekeyBundles participant = repository.prekeyBundles participant)
    (hcounter : repository'.oneTimePrekeyConsumption participant =
      repository.oneTimePrekeyConsumption participant) :
    Accounted participant repository' published latest consumed :=
  { h with queue := hqueue.trans h.queue, counter := hcounter.trans h.counter }

theorem stock :
    repository.prekeyStock participant = ⟨published.length - consumed, latest.isSome⟩ := by
  have hfallback : ((repository.prekeyBundles participant).any fun bundle => !bundle.isOneTime) =
      latest.isSome := by
    have havailable : (published.drop consumed).any (fun bundle => !bundle.isOneTime) = false := by
      apply any_eq_false.mpr
      intro bundle hbundle
      simp [h.available_one_time bundle hbundle]
    rw [h.queue, any_append, havailable, Bool.false_or]
    cases latest with
    | none => rfl
    | some bundle =>
      have hbundle : bundle.isOneTime = false := h.fallback bundle rfl
      simp [hbundle]
  rw [KeyRepository.prekeyStock, hfallback, h.oneTimeBundles_queue, length_drop]

end Queue

/-- An upload adds one-time bundles and may replace the fallback. -/
theorem publish (batch : PrekeyBundleBatchStorable) :
    Accounted participant (repository.publishPrekeyBundleBatch participant batch)
      (published ++ batch.oneTimePrekeys.map batch.oneTimeBundle)
      ((if batch.signedPrekeyFallback then some batch.fallbackBundle else none).or latest)
      consumed := by
  constructor
  · have hfallbacks : (batch.expand.filter fun bundle => !bundle.isOneTime).getLast? =
        if batch.signedPrekeyFallback then some batch.fallbackBundle else none := by
      rw [batch.fallbacks_expand]
      cases batch.signedPrekeyFallback <;> rfl
    have hqueued : latest.toList.getLast? = latest := by
      cases latest <;> rfl
    have hqueue :
        (repository.publishPrekeyBundleBatch participant batch).prekeyBundles participant =
          KeyRepository.publishedQueue (repository.prekeyBundles participant) batch.expand :=
      update_self ..
    rw [hqueue, publishedQueue_eq_sorted, h.oneTimeBundles_queue, h.fallbacks_queue,
      batch.oneTimeBundles_expand, hfallbacks, hqueued, drop_append_of_le_length h.enough]
  · intro bundle hbundle
    rcases mem_append.mp hbundle with hold | hnew
    · exact h.one_time bundle hold
    · obtain ⟨prekey, -, rfl⟩ := mem_map.mp hnew
      rfl
  · intro bundle hbundle
    cases hfallback : batch.signedPrekeyFallback with
    | true =>
      rw [hfallback] at hbundle
      obtain rfl : batch.fallbackBundle = bundle := Option.some.inj hbundle
      rfl
    | false =>
      rw [hfallback] at hbundle
      exact h.fallback bundle hbundle
  · rw [length_append]
    exact h.enough.trans (Nat.le_add_right ..)
  · exact h.counter

/-- Without an available one-time bundle nothing is consumed, the fallback included. -/
theorem consume_nil (havailable : published.drop consumed = []) :
    repository.consumeOneTimePrekey participant = (false, repository) := by
  have hqueue := h.queue
  rw [havailable, nil_append] at hqueue
  rw [KeyRepository.consumeOneTimePrekey, hqueue]
  cases latest with
  | none => rfl
  | some bundle =>
    have hfallback : bundle.isOneTime = false := h.fallback bundle rfl
    simp [hfallback]

theorem consume_cons {oldest : PrekeyBundleStorable} {rest : List PrekeyBundleStorable}
    (havailable : published.drop consumed = oldest :: rest) :
    repository.consumeOneTimePrekey participant = (true, {
      prekeyBundles := update repository.prekeyBundles participant (rest ++ latest.toList)
      oneTimePrekeyConsumption := update repository.oneTimePrekeyConsumption participant
        (repository.oneTimePrekeyConsumption participant + 1) }) := by
  have hqueue := h.queue
  rw [havailable, cons_append] at hqueue
  have holdest : oldest.isOneTime = true :=
    h.available_one_time oldest (havailable ▸ mem_cons_self)
  rw [KeyRepository.consumeOneTimePrekey, hqueue]
  exact if_pos holdest

/-- A consumption succeeds if there is a one-time bundle. -/
theorem consume_iff : (repository.consumeOneTimePrekey participant).1 = true ↔
    ∃ bundle ∈ repository.prekeyBundles participant, bundle.isOneTime = true := by
  have hany : (∃ bundle ∈ repository.prekeyBundles participant, bundle.isOneTime = true) ↔
      published.drop consumed ≠ [] := by
    rw [← h.oneTimeBundles_queue, oneTimeBundles, ne_eq, filter_eq_nil_iff]
    simp
  rw [hany]
  cases havailable : published.drop consumed with
  | nil => simp [h.consume_nil havailable]
  | cons oldest rest => simp [h.consume_cons havailable]

/-- A consumption takes the oldest one-time bundle, if there is one. -/
theorem consume_queue : (repository.consumeOneTimePrekey participant).2.prekeyBundles =
    update repository.prekeyBundles participant
      ((published.drop consumed).tail ++ latest.toList) := by
  cases havailable : published.drop consumed with
  | nil =>
    have hqueue := h.queue
    rw [havailable] at hqueue
    rw [h.consume_nil havailable, tail_nil, ← hqueue, update_eq_self]
  | cons oldest rest => rw [h.consume_cons havailable, tail_cons]

/-- A consumption that succeeds is counted. -/
theorem consume :
    Accounted participant (repository.consumeOneTimePrekey participant).2 published latest
      (consumed + if (repository.consumeOneTimePrekey participant).1 then 1 else 0) := by
  cases havailable : published.drop consumed with
  | nil =>
    rw [h.consume_nil havailable]
    exact h
  | cons oldest rest =>
    have hmore : consumed < published.length := by
      refine Nat.lt_of_not_le fun hle => ?_
      rw [drop_eq_nil_of_le hle] at havailable
      cases havailable
    rw [h.consume_cons havailable]
    refine ⟨?_, h.one_time, h.fallback, hmore, ?_⟩
    · rw [if_pos rfl, ← drop_drop, havailable]
      exact update_self ..
    · rw [if_pos rfl, UInt64.ofNat_add, ← h.counter]
      exact update_self ..

end Accounted

theorem AccountedBy.step (h : AccountedBy participant repository history)
    (operation : Operation ι) :
    AccountedBy participant (repository.step operation)
      (history ++ [repository.entry operation]) := by
  by_cases hremoves : (repository.entry operation).removes participant = true
  · obtain rfl : operation = .removeParticipant participant := beq_iff_eq.mp hremoves
    simp only [AccountedBy, publishedBundles, latestFallback, consumedCount, sinceRemoval_append,
      hremoves]
    exact .remove participant repository
  rw [Bool.not_eq_true] at hremoves
  rw [AccountedBy, publishedBundles_append hremoves, latestFallback_append hremoves,
    consumedCount_append hremoves]
  unfold Entry.published Entry.fallbacks Entry.consumes KeyRepository.entry KeyRepository.step
  cases operation with
  | publishPrekeyBundleBatch owner batch =>
    by_cases howner : owner = participant
    · subst howner
      have hpublish := h.publish batch
      cases hfallback : batch.signedPrekeyFallback <;> simpa [hfallback] using hpublish
    · have hother : AccountedBy participant (repository.publishPrekeyBundleBatch owner batch)
          history := h.other (update_of_ne (Ne.symm howner) ..) rfl
      simpa [howner] using hother
  | fetchPrekeyBundle owner | prekeyStock owner => simpa using h
  | consumeOneTimePrekey owner =>
    by_cases howner : owner = participant
    · subst howner
      simpa using h.consume
    · have hother : AccountedBy participant (repository.consumeOneTimePrekey owner).2 history := by
        refine h.other ?_ (repository.consumeOneTimePrekey_counter_of_ne (Ne.symm howner))
        rw [repository.consumeOneTimePrekey_queue]
        exact update_of_ne (Ne.symm howner) ..
      simpa [howner] using hother
  | removeParticipant owner =>
    have howner : participant ≠ owner := by
      rintro rfl
      simp [Entry.removes, KeyRepository.entry] at hremoves
    have hother : AccountedBy participant (repository.removeParticipant owner) history :=
      h.other (update_of_ne howner ..) (update_of_ne howner ..)
    simpa using hother

theorem KeyRepository.record_append (repository : KeyRepository ι)
    (operations : List (Operation ι)) (operation : Operation ι) :
    repository.record (operations ++ [operation]) = repository.record operations ++
      [(execute KeyRepository.step repository operations).entry operation] := by
  induction operations generalizing repository with
  | nil => rfl
  | cons first operations ih => exact congrArg (repository.entry first :: ·) (ih _)

theorem accounted_of_run {participant : ι} {operations : List (Operation ι)} :
    AccountedBy participant (execute KeyRepository.step .new operations)
      (KeyRepository.new.record operations) := by
  induction operations using reverseRecOn with
  | nil => exact ⟨rfl, by simp [KeyRepository.record, publishedBundles, sinceRemoval],
      by simp [KeyRepository.record, latestFallback, sinceRemoval], Nat.zero_le _, rfl⟩
  | append_singleton operations operation ih =>
    rw [execute_append, KeyRepository.record_append]
    exact ih.step operation

end Steps

section Runs

/-- After every history of a repository: the queue of a participant is made of the one-time
bundles uploaded and not consumed since its last removal, in order, and the latest fallback.
A fetch returns its front, and a consumption removes the oldest one-time bundle if there is
one, and otherwise nothing. The stock and the counter agree with the history. -/
theorem queue_determined_by_history (operations : List (Operation ι)) (participant : ι) :
    let repository := execute KeyRepository.step .new operations
    let history := KeyRepository.new.record operations
    repository.prekeyBundles participant =
        availableBundles participant history ++ (latestFallback participant history).toList ∧
      (∀ bundle ∈ availableBundles participant history, bundle.isOneTime = true) ∧
      (∀ bundle ∈ latestFallback participant history, bundle.isOneTime = false) ∧
      repository.fetchPrekeyBundle participant =
        (availableBundles participant history ++
          (latestFallback participant history).toList).head? ∧
      repository.step (.fetchPrekeyBundle participant) = repository ∧
      ((repository.consumeOneTimePrekey participant).1 = true ↔
        ∃ bundle ∈ repository.prekeyBundles participant, bundle.isOneTime = true) ∧
      (repository.consumeOneTimePrekey participant).2.prekeyBundles =
        update repository.prekeyBundles participant
          ((availableBundles participant history).tail ++
            (latestFallback participant history).toList) ∧
      repository.prekeyStock participant = ⟨(publishedBundles participant history).length -
        consumedCount participant history, (latestFallback participant history).isSome⟩ ∧
      repository.oneTimePrekeysConsumed participant =
        .ofNat (consumedCount participant history) := by
  intro repository history
  have h : AccountedBy participant repository history := accounted_of_run
  exact ⟨h.queue, h.available_one_time, h.fallback, congrArg head? h.queue, rfl, h.consume_iff,
    h.consume_queue, h.stock, h.counter⟩

end Runs

end MessagingBench.Signal.Prekeys
