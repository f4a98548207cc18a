import Mathlib.Data.List.Range
import MessagingBench.Delivery.State

/-!
# Prekey bundles and the key repository

The bundles of `key_repository.rs`, how a participant generates and packs them, and the
queues of the repository: fetched from and consumed at the front, with one-time bundles
before the fallback. Ids are `u32` in the source; the id counter of a participant stops at
the largest one.
-/

namespace MessagingBench.Signal.Prekeys

open List Function Delivery

inductive PqPrekeyType
  | oneTime
  | lastResort
  deriving DecidableEq, Repr

def PqPrekeyType.text : PqPrekeyType → String
  | .oneTime => "one_time"
  | .lastResort => "last_resort"

structure PrekeyBundleStorable where
  registrationId : Nat
  deviceId : Nat
  bundleId : String
  prekeyId : Option Nat
  prekeyPublic : Option Bytes
  classicalOneTimePrekeyPresent : Bool
  classicalOneTimePrekeyId : Option Nat
  signedPrekeyId : Nat
  signedPrekeyPublic : Bytes
  signedPrekeySignature : Bytes
  identityKeyPublic : Bytes
  kyberPrekeyId : Nat
  kyberPrekeyPublic : Bytes
  kyberPrekeySignature : Bytes
  pqPrekeyId : Nat
  pqPrekeyType : PqPrekeyType
  pqPrekeySignaturePresent : Bool
  deriving DecidableEq, Repr

def PrekeyBundleStorable.isOneTime (bundle : PrekeyBundleStorable) : Bool :=
  bundle.classicalOneTimePrekeyPresent || bundle.pqPrekeyType == .oneTime

structure PrekeyStock where
  oneTimeAvailable : Nat
  fallbackAvailable : Bool
  deriving DecidableEq, Repr

structure OneTimePrekeyStorable where
  prekeyId : Nat
  prekeyPublic : Bytes
  pqPrekeyId : Nat
  pqPrekeyPublic : Bytes
  pqPrekeySignature : Bytes
  deriving DecidableEq, Repr

structure PrekeyBundleBatchStorable where
  registrationId : Nat
  deviceId : Nat
  signedPrekeyId : Nat
  signedPrekeyPublic : Bytes
  signedPrekeySignature : Bytes
  identityKeyPublic : Bytes
  lastResortPqPrekeyId : Nat
  lastResortPqPrekeyPublic : Bytes
  lastResortPqPrekeySignature : Bytes
  oneTimePrekeys : List OneTimePrekeyStorable
  signedPrekeyFallback : Bool
  deriving DecidableEq, Repr

namespace PrekeyBundleBatchStorable

def bundleId (deviceId signedPrekeyId : Nat) (classicalPrekeyId : Option Nat) (pqPrekeyId : Nat)
    (pqType : PqPrekeyType) : String :=
  "device" ++ deviceId.repr ++ "-spk" ++ signedPrekeyId.repr ++ "-classical" ++
    (classicalPrekeyId.map Nat.repr).getD "none" ++ "-pq" ++ pqPrekeyId.repr ++ "-" ++ pqType.text

variable (batch : PrekeyBundleBatchStorable)

def oneTimeBundle (prekey : OneTimePrekeyStorable) :
    PrekeyBundleStorable where
  registrationId := batch.registrationId
  deviceId := batch.deviceId
  bundleId := bundleId batch.deviceId batch.signedPrekeyId (some prekey.prekeyId)
    prekey.pqPrekeyId .oneTime
  prekeyId := some prekey.prekeyId
  prekeyPublic := some prekey.prekeyPublic
  classicalOneTimePrekeyPresent := true
  classicalOneTimePrekeyId := some prekey.prekeyId
  signedPrekeyId := batch.signedPrekeyId
  signedPrekeyPublic := batch.signedPrekeyPublic
  signedPrekeySignature := batch.signedPrekeySignature
  identityKeyPublic := batch.identityKeyPublic
  kyberPrekeyId := prekey.pqPrekeyId
  kyberPrekeyPublic := prekey.pqPrekeyPublic
  kyberPrekeySignature := prekey.pqPrekeySignature
  pqPrekeyId := prekey.pqPrekeyId
  pqPrekeyType := .oneTime
  pqPrekeySignaturePresent := !prekey.pqPrekeySignature.isEmpty

def fallbackBundle : PrekeyBundleStorable where
  registrationId := batch.registrationId
  deviceId := batch.deviceId
  bundleId := bundleId batch.deviceId batch.signedPrekeyId none batch.lastResortPqPrekeyId
    .lastResort
  prekeyId := none
  prekeyPublic := none
  classicalOneTimePrekeyPresent := false
  classicalOneTimePrekeyId := none
  signedPrekeyId := batch.signedPrekeyId
  signedPrekeyPublic := batch.signedPrekeyPublic
  signedPrekeySignature := batch.signedPrekeySignature
  identityKeyPublic := batch.identityKeyPublic
  kyberPrekeyId := batch.lastResortPqPrekeyId
  kyberPrekeyPublic := batch.lastResortPqPrekeyPublic
  kyberPrekeySignature := batch.lastResortPqPrekeySignature
  pqPrekeyId := batch.lastResortPqPrekeyId
  pqPrekeyType := .lastResort
  pqPrekeySignaturePresent := !batch.lastResortPqPrekeySignature.isEmpty

def expand : List PrekeyBundleStorable :=
  batch.oneTimePrekeys.map batch.oneTimeBundle ++
    if batch.signedPrekeyFallback then [batch.fallbackBundle] else []

end PrekeyBundleBatchStorable

def oneTimeBundles (bundles : List PrekeyBundleStorable) : List PrekeyBundleStorable :=
  bundles.filter PrekeyBundleStorable.isOneTime

theorem oneTimeBundles_append (first second : List PrekeyBundleStorable) :
    oneTimeBundles (first ++ second) = oneTimeBundles first ++ oneTimeBundles second :=
  filter_append ..

variable (batch : PrekeyBundleBatchStorable)

theorem PrekeyBundleBatchStorable.oneTimeBundles_expand :
    oneTimeBundles batch.expand = batch.oneTimePrekeys.map batch.oneTimeBundle := by
  have hone : oneTimeBundles (batch.oneTimePrekeys.map batch.oneTimeBundle) =
      batch.oneTimePrekeys.map batch.oneTimeBundle := by
    apply filter_eq_self.mpr
    intro bundle hbundle
    obtain ⟨prekey, -, rfl⟩ := mem_map.mp hbundle
    rfl
  have hfallback : oneTimeBundles (if batch.signedPrekeyFallback then [batch.fallbackBundle]
      else []) = [] := by
    split
    · rfl
    · rfl
  rw [expand, oneTimeBundles_append, hone, hfallback, append_nil]

theorem PrekeyBundleBatchStorable.fallbacks_expand :
    (batch.expand.filter fun bundle => !bundle.isOneTime) =
      if batch.signedPrekeyFallback then [batch.fallbackBundle] else [] := by
  have hone : ((batch.oneTimePrekeys.map batch.oneTimeBundle).filter
      fun bundle => !bundle.isOneTime) = [] := by
    apply filter_eq_nil_iff.mpr
    intro bundle hbundle
    obtain ⟨prekey, -, rfl⟩ := mem_map.mp hbundle
    exact Bool.false_ne_true
  rw [expand, filter_append, hone, nil_append]
  split
  · rfl
  · rfl

section Repository

variable {ι : Type} [DecidableEq ι]

/-- The queues of all participants; a participant without an entry has an empty one. -/
structure KeyRepository (ι : Type) where
  prekeyBundles : ι → List PrekeyBundleStorable
  oneTimePrekeyConsumption : ι → UInt64

namespace KeyRepository

def new : KeyRepository ι := ⟨fun _ => [], fun _ => 0⟩

/-- Put a bundle at the end of the one-time bundles, or in place of the fallback. -/
def sortBundle (sorted : List PrekeyBundleStorable × Option PrekeyBundleStorable)
    (bundle : PrekeyBundleStorable) : List PrekeyBundleStorable × Option PrekeyBundleStorable :=
  if bundle.isOneTime then (sorted.1 ++ [bundle], sorted.2) else (sorted.1, some bundle)

/-- The queue after an upload. -/
def publishedQueue (queue bundles : List PrekeyBundleStorable) : List PrekeyBundleStorable :=
  let queued := queue.foldl sortBundle ([], none)
  let sorted := bundles.foldl sortBundle queued
  sorted.1 ++ sorted.2.toList

variable (repository : KeyRepository ι)

def publishPrekeyBundles (participant : ι)
    (bundles : List PrekeyBundleStorable) : KeyRepository ι :=
  { repository with
    prekeyBundles := update repository.prekeyBundles participant
      (publishedQueue (repository.prekeyBundles participant) bundles) }

def publishPrekeyBundleBatch (participant : ι)
    (batch : PrekeyBundleBatchStorable) : KeyRepository ι :=
  repository.publishPrekeyBundles participant batch.expand

def fetchPrekeyBundle (participant : ι) :
    Option PrekeyBundleStorable :=
  (repository.prekeyBundles participant).head?

/-- Whether a bundle was consumed, and the repository afterwards. -/
def consumeOneTimePrekey (participant : ι) :
    Bool × KeyRepository ι :=
  match repository.prekeyBundles participant with
  | [] => (false, repository)
  | front :: rest =>
    if front.isOneTime then
      (true, {
        prekeyBundles := update repository.prekeyBundles participant rest
        oneTimePrekeyConsumption := update repository.oneTimePrekeyConsumption participant
          (repository.oneTimePrekeyConsumption participant + 1) })
    else (false, repository)

def prekeyStock (participant : ι) : PrekeyStock where
  oneTimeAvailable := (oneTimeBundles (repository.prekeyBundles participant)).length
  fallbackAvailable := (repository.prekeyBundles participant).any fun bundle => !bundle.isOneTime

def oneTimePrekeysConsumed (participant : ι) : UInt64 :=
  repository.oneTimePrekeyConsumption participant

def removeParticipant (participant : ι) : KeyRepository ι where
  prekeyBundles := update repository.prekeyBundles participant []
  oneTimePrekeyConsumption := update repository.oneTimePrekeyConsumption participant 0

end KeyRepository

/-- What the first bundle of a queue gives up when it is consumed. -/
def consumedOf (queue : List PrekeyBundleStorable) : Option PrekeyBundleStorable :=
  queue.head?.filter PrekeyBundleStorable.isOneTime

/-- What is left of a queue after a consumption. -/
def leftOf : List PrekeyBundleStorable → List PrekeyBundleStorable
  | [] => []
  | front :: rest => if front.isOneTime then rest else front :: rest

variable (repository : KeyRepository ι)

theorem KeyRepository.consumeOneTimePrekey_queue
    (participant : ι) : (repository.consumeOneTimePrekey participant).2.prekeyBundles =
      update repository.prekeyBundles participant
        (leftOf (repository.prekeyBundles participant)) := by
  rw [consumeOneTimePrekey]
  cases hqueue : repository.prekeyBundles participant with
  | nil =>
    simp only [leftOf]
    rw [← hqueue, update_eq_self]
  | cons front rest =>
    cases hfront : front.isOneTime with
    | true => simp only [leftOf, hfront, ite_true]
    | false =>
      simp only [leftOf, hfront, Bool.false_eq_true, ite_false]
      rw [← hqueue, update_eq_self]

theorem KeyRepository.consumeOneTimePrekey_counter_of_ne
    {participant other : ι} (h : other ≠ participant) :
    (repository.consumeOneTimePrekey participant).2.oneTimePrekeyConsumption other =
      repository.oneTimePrekeyConsumption other := by
  rw [consumeOneTimePrekey]
  split
  · rfl
  · split
    · exact update_of_ne h ..
    · rfl

variable (bundles : List PrekeyBundleStorable)

theorem oneTimeBundles_sortBundle
    (sorted : List PrekeyBundleStorable × Option PrekeyBundleStorable) :
    (bundles.foldl KeyRepository.sortBundle sorted).1 = sorted.1 ++ oneTimeBundles bundles := by
  induction bundles generalizing sorted with
  | nil => exact (append_nil _).symm
  | cons bundle bundles ih =>
    rw [foldl_cons, ih, KeyRepository.sortBundle]
    cases hbundle : bundle.isOneTime with
    | true | false => simp [oneTimeBundles, hbundle]

theorem fallback_sortBundle {sorted : List PrekeyBundleStorable × Option PrekeyBundleStorable}
    (hsorted : oneTimeBundles sorted.2.toList = []) :
    oneTimeBundles (bundles.foldl KeyRepository.sortBundle sorted).2.toList = [] := by
  induction bundles generalizing sorted with
  | nil => exact hsorted
  | cons bundle bundles ih =>
    apply ih
    rw [KeyRepository.sortBundle]
    cases hbundle : bundle.isOneTime with
    | true => exact hsorted
    | false => simp [oneTimeBundles, hbundle]

/-- An upload loses no one-time bundle and appends the uploaded ones in order. -/
theorem publishedQueue_eq {queue bundles : List PrekeyBundleStorable} :
    ∃ fallback, oneTimeBundles fallback = [] ∧ KeyRepository.publishedQueue queue bundles =
      oneTimeBundles queue ++ oneTimeBundles bundles ++ fallback := by
  have hqueued : oneTimeBundles (queue.foldl KeyRepository.sortBundle ([], none)).2.toList = [] :=
    fallback_sortBundle queue rfl
  refine ⟨_, fallback_sortBundle bundles hqueued, ?_⟩
  rw [KeyRepository.publishedQueue, oneTimeBundles_sortBundle, oneTimeBundles_sortBundle,
    nil_append]

theorem oneTimeBundles_publishedQueue (queue bundles : List PrekeyBundleStorable) :
    oneTimeBundles (KeyRepository.publishedQueue queue bundles) =
      oneTimeBundles queue ++ oneTimeBundles bundles := by
  have hone : ∀ bundles, oneTimeBundles (oneTimeBundles bundles) = oneTimeBundles bundles := by
    intro bundles
    exact filter_eq_self.mpr fun bundle hbundle => (mem_filter.mp hbundle).2
  obtain ⟨fallback, hfallback, hqueue⟩ := publishedQueue_eq
  rw [hqueue, oneTimeBundles_append, oneTimeBundles_append, hone, hone, hfallback, append_nil]

/-- The last fallback seen takes the place of the ones before. -/
theorem fallback_sortBundle_eq (sorted : List PrekeyBundleStorable × Option PrekeyBundleStorable) :
    (bundles.foldl KeyRepository.sortBundle sorted).2 =
      (bundles.filter fun bundle => !bundle.isOneTime).getLast?.or sorted.2 := by
  induction bundles generalizing sorted with
  | nil => rfl
  | cons bundle bundles ih =>
    rw [foldl_cons, ih, KeyRepository.sortBundle]
    cases hbundle : bundle.isOneTime with
    | true => simp [hbundle]
    | false =>
      simp only [hbundle, Bool.false_eq_true, ite_false, Bool.not_false, filter_cons_of_pos,
        getLast?_cons]
      cases (bundles.filter fun bundle => !bundle.isOneTime).getLast? <;> rfl

/-- The queue after an upload: all one-time bundles in order, and the latest fallback. -/
theorem publishedQueue_eq_sorted (queue bundles : List PrekeyBundleStorable) :
    KeyRepository.publishedQueue queue bundles = oneTimeBundles queue ++ oneTimeBundles bundles ++
      ((bundles.filter fun bundle => !bundle.isOneTime).getLast?.or
        (queue.filter fun bundle => !bundle.isOneTime).getLast?).toList := by
  rw [KeyRepository.publishedQueue, oneTimeBundles_sortBundle, oneTimeBundles_sortBundle,
    fallback_sortBundle_eq, fallback_sortBundle_eq, nil_append, Option.or_none]

/-- A one-time bundle at the front of a queue stays there under an upload. -/
theorem head?_publishedQueue {queue : List PrekeyBundleStorable} {front : PrekeyBundleStorable}
    (hfront : queue.head? = some front) (hone : front.isOneTime = true)
    (bundles : List PrekeyBundleStorable) :
    (KeyRepository.publishedQueue queue bundles).head? = some front := by
  obtain ⟨rest, rfl⟩ := head?_eq_some_iff.mp hfront
  obtain ⟨fallback, -, hqueue⟩ := publishedQueue_eq
  rw [hqueue, oneTimeBundles, filter_cons_of_pos hone]
  rfl

end Repository

section Generation

/-- The bundle of libsignal; its prekey has an id and a public part, or is absent. -/
structure PreKeyBundle where
  registrationId : Nat
  deviceId : Nat
  preKey : Option (Nat × Bytes)
  signedPreKeyId : Nat
  signedPreKeyPublic : Bytes
  signedPreKeySignature : Bytes
  kyberPreKeyId : Nat
  kyberPreKeyPublic : Bytes
  kyberPreKeySignature : Bytes
  identityKey : Bytes
  deriving DecidableEq, Repr

/-- The part of a `SignalParticipant` that prekeys are generated from. -/
structure PrekeyOwner where
  registrationId : Nat
  signedPrekeyId : Nat
  signedPrekeyPublic : Bytes
  signedPrekeySignature : Bytes
  identityKeyPublic : Bytes
  lastResortPqPrekeyId : Nat
  lastResortPqPrekeyPublic : Bytes
  lastResortPqPrekeySignature : Bytes
  nextOneTimePrekeyId : Nat
  initialOneTimePrekeyCount : Nat
  oneTimePrekeyRefillCount : Nat
  oneTimePrekeyLowWatermark : Nat
  deriving DecidableEq, Repr

/-- The key pairs that are drawn for a one-time prekey id. -/
structure DrawnKeys where
  prekeyPublic : Bytes
  kyberPublic : Bytes
  kyberSignature : Bytes
  deriving DecidableEq, Repr

/-- The largest `u32`. -/
def maxPrekeyId : Nat := 4294967295

def signalDeviceId : Nat := 1

namespace PrekeyOwner

variable (owner : PrekeyOwner) (draw : Nat → DrawnKeys)

def oneTimePreKeyBundle (rawPrekeyId : Nat) : PreKeyBundle where
  registrationId := owner.registrationId
  deviceId := signalDeviceId
  preKey := some (rawPrekeyId, (draw rawPrekeyId).prekeyPublic)
  signedPreKeyId := owner.signedPrekeyId
  signedPreKeyPublic := owner.signedPrekeyPublic
  signedPreKeySignature := owner.signedPrekeySignature
  kyberPreKeyId := rawPrekeyId
  kyberPreKeyPublic := (draw rawPrekeyId).kyberPublic
  kyberPreKeySignature := (draw rawPrekeyId).kyberSignature
  identityKey := owner.identityKeyPublic

def lastResortPreKeyBundle : PreKeyBundle where
  registrationId := owner.registrationId
  deviceId := signalDeviceId
  preKey := none
  signedPreKeyId := owner.signedPrekeyId
  signedPreKeyPublic := owner.signedPrekeyPublic
  signedPreKeySignature := owner.signedPrekeySignature
  kyberPreKeyId := owner.lastResortPqPrekeyId
  kyberPreKeyPublic := owner.lastResortPqPrekeyPublic
  kyberPreKeySignature := owner.lastResortPqPrekeySignature
  identityKey := owner.identityKeyPublic

def advance : PrekeyOwner := { owner with nextOneTimePrekeyId := owner.nextOneTimePrekeyId + 1 }

/-- The loop over the one-time prekeys. An exhausted id space leaves the counter at its end. -/
def generateOneTimePrekeys :
    Nat → PrekeyOwner → Except String (List PreKeyBundle) × PrekeyOwner
  | 0, owner => (.ok [], owner)
  | count + 1, owner =>
    if owner.nextOneTimePrekeyId = maxPrekeyId then
      (.error "one-time prekey id space exhausted", owner)
    else
      ((generateOneTimePrekeys count owner.advance).1.map
          (owner.oneTimePreKeyBundle draw owner.nextOneTimePrekeyId :: ·),
        (generateOneTimePrekeys count owner.advance).2)

/-- `generate_publishable_prekey_bundles`; both callers include the last-resort bundle. -/
def generatePublishablePrekeyBundles (oneTimePrekeyCount : Nat) :
    Except String (List PreKeyBundle) × PrekeyOwner :=
  let generated := generateOneTimePrekeys draw oneTimePrekeyCount owner
  (generated.1.map (· ++ [owner.lastResortPreKeyBundle]), generated.2)

def generatePrekeyBundles : Except String (List PreKeyBundle) × PrekeyOwner :=
  owner.generatePublishablePrekeyBundles draw owner.initialOneTimePrekeyCount

def generateReplenishmentPrekeyBundles : Except String (List PreKeyBundle) × PrekeyOwner :=
  owner.generatePublishablePrekeyBundles draw owner.oneTimePrekeyRefillCount

end PrekeyOwner

/-- The one-time prekeys and the last-resort prekey found in a list of bundles. -/
structure SortedPrekeys where
  oneTimePrekeys : List OneTimePrekeyStorable
  lastResort : Option PreKeyBundle

def SortedPrekeys.add (sorted : SortedPrekeys) (bundle : PreKeyBundle) : SortedPrekeys :=
  match bundle.preKey with
  | some (prekeyId, prekeyPublic) =>
    { sorted with
      oneTimePrekeys := sorted.oneTimePrekeys ++ [{
        prekeyId := prekeyId
        prekeyPublic := prekeyPublic
        pqPrekeyId := bundle.kyberPreKeyId
        pqPrekeyPublic := bundle.kyberPreKeyPublic
        pqPrekeySignature := bundle.kyberPreKeySignature }] }
  | none => { sorted with lastResort := some bundle }

variable (bundles : List PreKeyBundle)

def sortPrekeys : SortedPrekeys :=
  bundles.foldl SortedPrekeys.add ⟨[], none⟩

def prekeyBundleBatch : Except String PrekeyBundleBatchStorable :=
  match bundles.head? with
  | none => .error "no prekey bundles generated"
  | some first =>
    match (sortPrekeys bundles).lastResort with
    | none => .error "no last-resort PQ prekey bundle generated"
    | some lastResort => .ok {
        registrationId := first.registrationId
        deviceId := first.deviceId
        signedPrekeyId := first.signedPreKeyId
        signedPrekeyPublic := first.signedPreKeyPublic
        signedPrekeySignature := first.signedPreKeySignature
        identityKeyPublic := first.identityKey
        lastResortPqPrekeyId := lastResort.kyberPreKeyId
        lastResortPqPrekeyPublic := lastResort.kyberPreKeyPublic
        lastResortPqPrekeySignature := lastResort.kyberPreKeySignature
        oneTimePrekeys := (sortPrekeys bundles).oneTimePrekeys
        signedPrekeyFallback := true }

def preKeyIds : List Nat :=
  bundles.filterMap fun bundle => bundle.preKey.map Prod.fst

theorem PrekeyOwner.generateOneTimePrekeys_next_le (draw : Nat → DrawnKeys) (count : Nat)
    (owner : PrekeyOwner) : owner.nextOneTimePrekeyId ≤
      (generateOneTimePrekeys draw count owner).2.nextOneTimePrekeyId := by
  induction count generalizing owner with
  | zero => exact Nat.le_refl _
  | succ count ih =>
    rw [generateOneTimePrekeys]
    split
    · exact Nat.le_refl _
    · exact Nat.le_of_succ_le (ih owner.advance)

variable {bundles : List PreKeyBundle}

theorem PrekeyOwner.generateOneTimePrekeys_ids {draw : Nat → DrawnKeys} {count : Nat}
    {owner : PrekeyOwner} (h : (generateOneTimePrekeys draw count owner).1 = .ok bundles) :
    preKeyIds bundles = range' owner.nextOneTimePrekeyId count ∧
      (generateOneTimePrekeys draw count owner).2.nextOneTimePrekeyId =
        owner.nextOneTimePrekeyId + count := by
  induction count generalizing owner bundles with
  | zero =>
    cases h
    exact ⟨rfl, rfl⟩
  | succ count ih =>
    rw [generateOneTimePrekeys] at h ⊢
    split at h
    · cases h
    rename_i hnext
    rw [if_neg hnext]
    cases hrest : (generateOneTimePrekeys draw count owner.advance).1 with
    | error cause =>
      rw [hrest] at h
      cases h
    | ok rest =>
      rw [hrest] at h
      cases h
      obtain ⟨hids, hcounter⟩ := ih hrest
      constructor
      · exact congrArg (owner.nextOneTimePrekeyId :: ·) hids
      · exact hcounter.trans (Nat.succ_add_eq_add_succ owner.nextOneTimePrekeyId count)

theorem PrekeyOwner.generatePublishablePrekeyBundles_ids {draw : Nat → DrawnKeys} {count : Nat}
    {owner : PrekeyOwner}
    (h : (owner.generatePublishablePrekeyBundles draw count).1 = .ok bundles) :
    preKeyIds bundles = range' owner.nextOneTimePrekeyId count ∧
      (owner.generatePublishablePrekeyBundles draw count).2.nextOneTimePrekeyId =
        owner.nextOneTimePrekeyId + count := by
  simp only [generatePublishablePrekeyBundles] at h ⊢
  cases hone : (generateOneTimePrekeys draw count owner).1 with
  | error cause =>
    rw [hone] at h
    cases h
  | ok oneTime =>
    rw [hone] at h
    cases h
    obtain ⟨hids, hcounter⟩ := generateOneTimePrekeys_ids hone
    refine ⟨?_, hcounter⟩
    rw [← hids, preKeyIds, filterMap_append]
    exact append_nil _

theorem SortedPrekeys.oneTimePrekeys_foldl (bundles : List PreKeyBundle) (sorted : SortedPrekeys) :
    (bundles.foldl SortedPrekeys.add sorted).oneTimePrekeys.map (·.prekeyId) =
      sorted.oneTimePrekeys.map (·.prekeyId) ++ preKeyIds bundles := by
  induction bundles generalizing sorted with
  | nil => exact (append_nil _).symm
  | cons bundle bundles ih =>
    rw [foldl_cons, ih, SortedPrekeys.add]
    cases hprekey : bundle.preKey with
    | none | some prekey => simp [preKeyIds, hprekey]

theorem prekeyBundleBatch_ids {batch : PrekeyBundleBatchStorable}
    (h : prekeyBundleBatch bundles = .ok batch) :
    (oneTimeBundles batch.expand).map (·.prekeyId) = (preKeyIds bundles).map some := by
  have hsorted := SortedPrekeys.oneTimePrekeys_foldl bundles ⟨[], none⟩
  have hids : batch.oneTimePrekeys.map (·.prekeyId) = preKeyIds bundles := by
    rw [prekeyBundleBatch] at h
    split at h
    · cases h
    split at h
    · cases h
    · cases h
      exact hsorted
  rw [batch.oneTimeBundles_expand, ← hids, map_map, map_map]
  rfl

end Generation

end MessagingBench.Signal.Prekeys
