import MessagingBench.Core.Run
import MessagingBench.Signal.Establishment

/-!
# One-time bundles are used once in orderly runs

A consume request names the owner of a bundle and not the bundle, and the repository cannot
tell a repeated request from a new one. The books of a system say which bundles each owner
has on offer, which were used, and which initiators stand between a fetch and the response
to their consume request.
-/

namespace MessagingBench.Signal.Prekeys

open List Function Worker

/-- An initiator has fetched a bundle and its consume request is not yet answered. -/
structure Window (ι : Type) where
  peer : ι
  bundle : PrekeyBundleStorable
  established : Bool
  deriving DecidableEq, Repr

variable {bundle : PrekeyBundleStorable}

section Books

variable {ι : Type} [DecidableEq ι]

/-- What single use depends on: the queue of each owner, the bundles it is about to upload
and its id counter, the window of each initiator, and the one-time bundles of each owner
that sessions were established with. -/
structure Books (ι : Type) where
  queue : ι → List PrekeyBundleStorable
  pending : ι → List PrekeyBundleStorable
  next : ι → Nat
  window : ι → Option (Window ι)
  uses : ι → List PrekeyBundleStorable

/-- The bundle was generated by an owner whose id counter has this value. -/
def PrekeyBundleStorable.IssuedBelow (bundle : PrekeyBundleStorable) (next : Nat) : Prop :=
  ∃ id, bundle.prekeyId = some id ∧ id < next

theorem PrekeyBundleStorable.IssuedBelow.mono {next next' : Nat} (h : bundle.IssuedBelow next)
    (hle : next ≤ next') : bundle.IssuedBelow next' := by
  obtain ⟨id, hid, hlt⟩ := h
  exact ⟨id, hid, hlt.trans_le hle⟩

namespace Books

/-- The one-time bundles that an owner has on offer or is about to upload. -/
def supply (books : Books ι) (peer : ι) : List PrekeyBundleStorable :=
  oneTimeBundles (books.queue peer) ++ oneTimeBundles (books.pending peer)

/-- A participant goes on with other bundles to upload, another counter and another window. -/
def assign (books : Books ι) (i : ι) (pending : List PrekeyBundleStorable) (next : Nat)
    (window : Option (Window ι)) : Books ι :=
  { books with
    pending := update books.pending i pending
    next := update books.next i next
    window := update books.window i window }

/-- The bundles to upload are in the queue. -/
def upload (books : Books ι) (i : ι) : Books ι :=
  { books with
    queue := update books.queue i
      (KeyRepository.publishedQueue (books.queue i) (books.pending i))
    pending := update books.pending i [] }

/-- A window opens on the bundle of a peer. -/
def reserve (books : Books ι) (i peer : ι) (bundle : PrekeyBundleStorable) : Books ι :=
  { books with window := update books.window i (some ⟨peer, bundle, false⟩) }

/-- A session is established with the bundle of the window. -/
def use (books : Books ι) (i peer : ι) (bundle : PrekeyBundleStorable) : Books ι :=
  { books with
    window := update books.window i (some ⟨peer, bundle, true⟩)
    uses := update books.uses peer (books.uses peer ++ oneTimeBundles [bundle]) }

/-- The front of the queue is consumed and the window closes. -/
def consume (books : Books ι) (i peer : ι) : Books ι :=
  { books with
    queue := update books.queue peer (leftOf (books.queue peer))
    window := update books.window i none }

structure Tracked (books : Books ι) : Prop where
  distinct : ∀ peer, (books.supply peer).Nodup
  supply_issued : ∀ peer, ∀ bundle ∈ books.supply peer, bundle.IssuedBelow (books.next peer)
  uses_issued : ∀ peer, ∀ bundle ∈ books.uses peer, bundle.IssuedBelow (books.next peer)
  uses_one_time : ∀ peer, ∀ bundle ∈ books.uses peer, bundle.isOneTime = true
  used_once : ∀ peer, (books.uses peer).Nodup
  /-- A used bundle that is still on offer is about to be consumed by its user. -/
  spent : ∀ peer, ∀ bundle ∈ books.uses peer, bundle ∈ books.supply peer →
    ∃ i, books.window i = some ⟨peer, bundle, true⟩
  front : ∀ i w, books.window i = some w → (books.queue w.peer).head? = some w.bundle
  alone : ∀ i j v w, books.window i = some v → books.window j = some w → v.peer = w.peer → i = j
  unused : ∀ i w, books.window i = some w → w.established = false →
    w.bundle ∉ books.uses w.peer

variable {books : Books ι} {i peer : ι}

/-- Nothing is lost when bundles are dropped, counters advance and windows close without use. -/
theorem Tracked.turn (h : books.Tracked) {pending : List PrekeyBundleStorable} {next : Nat}
    {window : Option (Window ι)} (hpending : pending.Sublist (books.pending i))
    (hnext : books.next i ≤ next) (hwindow : window = books.window i ∨
      window = none ∧ ∀ w, books.window i = some w → w.established = false) :
    (books.assign i pending next window).Tracked := by
  have hsupply : ∀ peer,
      ((books.assign i pending next window).supply peer).Sublist (books.supply peer) := by
    intro peer
    apply Sublist.append_left
    by_cases hpeer : peer = i
    · subst hpeer
      simpa [assign, oneTimeBundles] using hpending.filter PrekeyBundleStorable.isOneTime
    · simp [assign, hpeer]
  have hnexts : ∀ peer, books.next peer ≤ (books.assign i pending next window).next peer := by
    intro peer
    by_cases hpeer : peer = i
    · subst hpeer
      simpa [assign] using hnext
    · simp [assign, hpeer]
  have hwindows : ∀ j w, (books.assign i pending next window).window j = some w →
      books.window j = some w := by
    intro j w hw
    by_cases hj : j = i
    · subst hj
      rcases hwindow with rfl | ⟨rfl, -⟩
      · simpa [assign] using hw
      · simp [assign] at hw
    · simpa [assign, hj] using hw
  have hkept : ∀ j peer bundle, books.window j = some ⟨peer, bundle, true⟩ →
      (books.assign i pending next window).window j = some ⟨peer, bundle, true⟩ := by
    intro j peer bundle hw
    by_cases hj : j = i
    · subst hj
      rcases hwindow with rfl | ⟨-, hopen⟩
      · simpa [assign] using hw
      · cases hopen _ hw
    · simpa [assign, hj] using hw
  exact { h with
    distinct := fun peer => (h.distinct peer).sublist (hsupply peer)
    supply_issued := fun peer bundle hbundle =>
      (h.supply_issued peer bundle ((hsupply peer).subset hbundle)).mono (hnexts peer)
    uses_issued := fun peer bundle hbundle =>
      (h.uses_issued peer bundle hbundle).mono (hnexts peer)
    spent := by
      intro peer bundle hused hbundle
      obtain ⟨j, hj⟩ := h.spent peer bundle hused ((hsupply peer).subset hbundle)
      exact ⟨j, hkept j peer bundle hj⟩
    front := fun j w hw => h.front j w (hwindows j w hw)
    alone := fun j k v w hv hw => h.alone j k v w (hwindows j v hv) (hwindows k w hw)
    unused := fun j w hw => h.unused j w (hwindows j w hw) }

/-- A participant goes on with nothing to upload. -/
theorem Tracked.settle (h : books.Tracked) {window : Option (Window ι)}
    (hwindow : books.window i = window) : (books.assign i [] (books.next i) window).Tracked :=
  h.turn (nil_sublist _) (Nat.le_refl _) (.inl hwindow.symm)

/-- Generated bundles have ids that the owner never used before. -/
theorem Tracked.issue (h : books.Tracked) {pending : List PrekeyBundleStorable} {count : Nat}
    (hids : (oneTimeBundles pending).map (·.prekeyId) =
      (range' (books.next i) count).map some) (hwindow : books.window i = none) :
    (books.assign i pending (books.next i + count) none).Tracked := by
  have hfresh : ∀ bundle ∈ oneTimeBundles pending, ∃ id, bundle.prekeyId = some id ∧
      books.next i ≤ id ∧ id < books.next i + count := by
    intro bundle hbundle
    have hid : bundle.prekeyId ∈ (range' (books.next i) count).map some :=
      hids ▸ mem_map_of_mem hbundle
    obtain ⟨id, hrange, hid⟩ := mem_map.mp hid
    exact ⟨id, hid.symm, mem_range'_1.mp hrange⟩
  have hnew : ∀ bundle ∈ oneTimeBundles pending, ¬ bundle.IssuedBelow (books.next i) := by
    rintro bundle hbundle ⟨id, hid, hlt⟩
    obtain ⟨id', hid', hle, -⟩ := hfresh bundle hbundle
    rw [hid, Option.some.injEq] at hid'
    omega
  have hqueue : ∀ bundle ∈ oneTimeBundles (books.queue i), bundle.IssuedBelow (books.next i) :=
    fun bundle hbundle => h.supply_issued i bundle (mem_append_left _ hbundle)
  -- The books differ from a turn that drops everything pending only by the new bundles.
  have hturn : (books.assign i [] (books.next i + count) none).Tracked :=
    h.turn (nil_sublist _) (Nat.le_add_right ..) (.inl hwindow.symm)
  have hother : ∀ peer, peer ≠ i →
      (books.assign i pending (books.next i + count) none).supply peer =
        (books.assign i [] (books.next i + count) none).supply peer := by
    intro peer hpeer
    simp [supply, assign, hpeer]
  have hown : (books.assign i pending (books.next i + count) none).supply i =
      oneTimeBundles (books.queue i) ++ oneTimeBundles pending := by
    simp [supply, assign]
  exact { hturn with
    distinct := by
      intro peer
      by_cases hpeer : peer = i
      · subst hpeer
        rw [hown]
        refine nodup_append'.mpr ⟨(nodup_append'.mp (h.distinct peer)).1, ?_, ?_⟩
        · refine Nodup.of_map (·.prekeyId) ?_
          rw [hids]
          exact (nodup_range' ..).map (Option.some_injective Nat)
        · intro bundle hold hbundle
          exact hnew bundle hbundle (hqueue bundle hold)
      · rw [hother peer hpeer]
        exact hturn.distinct peer
    supply_issued := by
      intro peer bundle hbundle
      by_cases hpeer : peer = i
      · subst hpeer
        rw [hown] at hbundle
        simp only [assign, update_self]
        rcases mem_append.mp hbundle with hold | hbundle
        · exact (hqueue bundle hold).mono (Nat.le_add_right ..)
        · obtain ⟨id, hid, -, hlt⟩ := hfresh bundle hbundle
          exact ⟨id, hid, hlt⟩
      · rw [hother peer hpeer] at hbundle
        exact hturn.supply_issued peer bundle hbundle
    spent := by
      intro peer bundle hused hbundle
      by_cases hpeer : peer = i
      · subst hpeer
        rw [hown] at hbundle
        rcases mem_append.mp hbundle with hold | hbundle
        · exact hturn.spent peer bundle hused (mem_append_left _ hold)
        · exact absurd (h.uses_issued peer bundle hused) (hnew bundle hbundle)
      · rw [hother peer hpeer] at hbundle
        exact hturn.spent peer bundle hused hbundle }

/-- An upload moves the pending bundles to the queue. A window on the fallback of the owner
would no longer be at the front. -/
theorem Tracked.upload (h : books.Tracked) (hwindow : ∀ j w, books.window j = some w →
    w.peer = i → w.bundle.isOneTime = true) : (books.upload i).Tracked := by
  have hsupply : ∀ peer, (books.upload i).supply peer = books.supply peer := by
    intro peer
    by_cases hpeer : peer = i
    · subst hpeer
      simp only [supply, Books.upload, update_self, oneTimeBundles_publishedQueue]
      exact append_nil _
    · simp [supply, Books.upload, hpeer]
  exact { h with
    distinct := fun peer => (hsupply peer).symm ▸ h.distinct peer
    supply_issued := fun peer bundle hbundle => h.supply_issued peer bundle (hsupply peer ▸ hbundle)
    spent := fun peer bundle hused hbundle => h.spent peer bundle hused (hsupply peer ▸ hbundle)
    front := by
      intro j w hw
      simp only [Books.upload]
      by_cases hpeer : w.peer = i
      · subst hpeer
        rw [update_self]
        exact head?_publishedQueue (h.front j w hw) (hwindow j w hw rfl) _
      · rw [update_of_ne hpeer]
        exact h.front j w hw }

omit [DecidableEq ι] in
theorem mem_supply_of_front (hfront : (books.queue peer).head? = some bundle)
    (hone : bundle.isOneTime = true) : bundle ∈ books.supply peer :=
  mem_append_left _ (mem_filter.mpr ⟨mem_of_mem_head? hfront, hone⟩)

theorem window_update {w v : Window ι} {j : ι} (h : update books.window i (some w) j = some v) :
    j = i ∧ v = w ∨ j ≠ i ∧ books.window j = some v := by
  by_cases hj : j = i
  · subst hj
    rw [update_self, Option.some.injEq] at h
    exact .inl ⟨rfl, h.symm⟩
  · rw [update_of_ne hj] at h
    exact .inr ⟨hj, h⟩

/-- A window that opens or changes on the bundle at the front stays the only one there. -/
theorem Tracked.window_set (h : books.Tracked) (established : Bool)
    (hfront : (books.queue peer).head? = some bundle)
    (honly : ∀ j v, books.window j = some v → v.peer = peer → j = i) :
    let window := update books.window i (some ⟨peer, bundle, established⟩)
    (∀ j v, window j = some v → (books.queue v.peer).head? = some v.bundle) ∧
      ∀ j k u v, window j = some u → window k = some v → u.peer = v.peer → j = k := by
  refine ⟨fun j v hv => ?_, fun j k u v hu hv hpeer => ?_⟩
  · rcases window_update hv with ⟨-, rfl⟩ | ⟨-, hv⟩
    · exact hfront
    · exact h.front j v hv
  · rcases window_update hu with ⟨rfl, rfl⟩ | ⟨-, hold⟩ <;>
      rcases window_update hv with ⟨rfl, rfl⟩ | ⟨-, hold'⟩
    · rfl
    · exact (honly k v hold' hpeer.symm).symm
    · exact honly j u hold hpeer
    · exact h.alone j k u v hold hold' hpeer

/-- A bundle is fetched while no initiator has a window on its owner. -/
theorem Tracked.reserve (h : books.Tracked) (hfront : (books.queue peer).head? = some bundle)
    (hfree : ∀ j w, books.window j = some w → w.peer ≠ peer) (hwindow : books.window i = none) :
    (books.reserve i peer bundle).Tracked := by
  have hset := h.window_set (i := i) false hfront fun j v hv hpeer => absurd hpeer (hfree j v hv)
  exact { h with
    spent := by
      intro owner used hused hsupply
      obtain ⟨j, hj⟩ := h.spent owner used hused hsupply
      refine ⟨j, (update_of_ne ?_ ..).trans hj⟩
      rintro rfl
      rw [hwindow] at hj
      cases hj
    front := hset.1
    alone := hset.2
    unused := by
      intro j w hw hestablished hused
      rcases window_update hw with ⟨-, rfl⟩ | ⟨-, hw⟩
      · -- A used bundle at the front of the queue still has the window of its user.
        have hone := h.uses_one_time peer bundle hused
        obtain ⟨k, hk⟩ := h.spent peer bundle hused (mem_supply_of_front hfront hone)
        exact hfree k _ hk rfl
      · exact h.unused j w hw hestablished hused }

/-- A session is established with the bundle of the window. -/
theorem Tracked.use (h : books.Tracked) (hwindow : books.window i = some ⟨peer, bundle, false⟩) :
    (books.use i peer bundle).Tracked := by
  have hfront : (books.queue peer).head? = some bundle := h.front i _ hwindow
  have hnew : bundle ∉ books.uses peer := h.unused i _ hwindow rfl
  have hmem : ∀ owner used, used ∈ (books.use i peer bundle).uses owner →
      used ∈ books.uses owner ∨ owner = peer ∧ used = bundle ∧ bundle.isOneTime = true := by
    intro owner used hused
    by_cases howner : owner = peer
    · subst howner
      simp only [Books.use, update_self, mem_append, oneTimeBundles,
        mem_filter, mem_singleton] at hused
      rcases hused with hused | ⟨rfl, hone⟩
      · exact .inl hused
      · exact .inr ⟨rfl, rfl, hone⟩
    · simp only [Books.use, update_of_ne howner] at hused
      exact .inl hused
  have hset := h.window_set true hfront fun j v hv => h.alone j i v _ hv hwindow
  exact { h with
    uses_issued := by
      intro owner used hused
      rcases hmem owner used hused with hused | ⟨rfl, rfl, hone⟩
      · exact h.uses_issued owner used hused
      · exact h.supply_issued owner used (mem_supply_of_front hfront hone)
    uses_one_time := by
      intro owner used hused
      rcases hmem owner used hused with hused | ⟨rfl, rfl, hone⟩
      · exact h.uses_one_time owner used hused
      · exact hone
    used_once := by
      intro owner
      by_cases howner : owner = peer
      · subst howner
        simp only [Books.use, update_self]
        have hsingle := (nodup_singleton bundle).filter PrekeyBundleStorable.isOneTime
        refine nodup_append'.mpr ⟨h.used_once owner, hsingle, ?_⟩
        intro used hused hbundle
        obtain rfl := mem_singleton.mp (mem_filter.mp hbundle).1
        exact hnew hused
      · simp only [Books.use, update_of_ne howner]
        exact h.used_once owner
    spent := by
      intro owner used hused hsupply
      rcases hmem owner used hused with hused | ⟨rfl, rfl, -⟩
      · obtain ⟨j, hj⟩ := h.spent owner used hused hsupply
        refine ⟨j, (update_of_ne ?_ ..).trans hj⟩
        rintro rfl
        rw [hwindow] at hj
        cases hj
      · exact ⟨i, update_self ..⟩
    front := hset.1
    alone := hset.2
    unused := by
      intro j w hw hestablished hused
      rcases window_update hw with ⟨-, rfl⟩ | ⟨hj, hw⟩
      · cases hestablished
      · rcases hmem w.peer w.bundle hused with hused | ⟨hpeer, -, -⟩
        · exact h.unused j w hw hestablished hused
        · exact hj (h.alone j i w _ hw hwindow hpeer) }

theorem oneTimeBundles_leftOf_sublist {queue : List PrekeyBundleStorable} :
    (oneTimeBundles (leftOf queue)).Sublist (oneTimeBundles queue) := by
  apply Sublist.filter
  cases queue with
  | nil => exact nil_sublist _
  | cons front rest =>
    rw [leftOf]
    split
    · exact sublist_cons_self front rest
    · exact Sublist.refl _

theorem Tracked.consume (h : books.Tracked)
    (hwindow : books.window i = some ⟨peer, bundle, true⟩) : (books.consume i peer).Tracked := by
  have hfront : (books.queue peer).head? = some bundle := h.front i _ hwindow
  have hwindows : ∀ j w, (books.consume i peer).window j = some w →
      j ≠ i ∧ books.window j = some w := by
    intro j w hw
    by_cases hj : j = i
    · subst hj
      simp [Books.consume] at hw
    · simp only [Books.consume, update_of_ne hj] at hw
      exact ⟨hj, hw⟩
  have hsupply : ∀ owner, ((books.consume i peer).supply owner).Sublist (books.supply owner) := by
    intro owner
    apply Sublist.append_right
    by_cases howner : owner = peer
    · subst howner
      simpa [Books.consume] using oneTimeBundles_leftOf_sublist
    · simp [Books.consume, howner]
  have hgone : bundle.isOneTime = true → bundle ∉ (books.consume i peer).supply peer := by
    intro hone hmem
    obtain ⟨rest, hqueue⟩ := head?_eq_some_iff.mp hfront
    have hdistinct := h.distinct peer
    rw [supply, hqueue, oneTimeBundles, filter_cons_of_pos hone, cons_append,
      nodup_cons] at hdistinct
    apply hdistinct.1
    simpa [supply, Books.consume, hqueue, leftOf, hone, oneTimeBundles] using hmem
  exact { h with
    distinct := fun owner => (h.distinct owner).sublist (hsupply owner)
    supply_issued := fun owner used hused =>
      h.supply_issued owner used ((hsupply owner).subset hused)
    spent := by
      intro owner used hused hmem
      obtain ⟨j, hj⟩ := h.spent owner used hused ((hsupply owner).subset hmem)
      refine ⟨j, (update_of_ne ?_ ..).trans hj⟩
      rintro rfl
      rw [hwindow] at hj
      cases hj
      exact hgone (h.uses_one_time _ _ hused) hmem
    front := by
      intro j w hw
      obtain ⟨hj, hw⟩ := hwindows j w hw
      have hpeer : w.peer ≠ peer := fun hpeer => hj (h.alone j i w _ hw hwindow hpeer)
      simp only [Books.consume, update_of_ne hpeer]
      exact h.front j w hw
    alone := fun j k v w hv hw => h.alone j k v w (hwindows j v hv).2 (hwindows k w hw).2
    unused := fun j w hw => h.unused j w (hwindows j w hw).2 }

end Books

end Books

section Observation

variable {ι : Type} [DecidableEq ι]

def Phase.window : Phase ι → Option (Window ι)
  | .holding peer _ bundle => some ⟨peer, bundle, false⟩
  | .asking (.consume peer _ used) _ => some ⟨peer, used, true⟩
  | _ => none

def Phase.pending : Phase ι → List PrekeyBundleStorable
  | .asking (.stockBefore batch) _ => batch.expand
  | .asking (.publish batch) _ => batch.expand
  | _ => []

namespace Event

def usesOf (peer : ι) : Event ι → List PrekeyBundleStorable
  | .established _ owner bundle => if owner = peer then oneTimeBundles [bundle] else []
  | .consumed _ _ _ _ => []

/-- A consume request removes the one-time bundle that was used, and nothing if the fallback
was used. -/
def RemovesUsed : Event ι → Prop
  | .established _ _ _ => True
  | .consumed _ _ used removed => removed = if used.isOneTime then some used else none

end Event

namespace System

variable (s : System ι)

def window (i : ι) : Option (Window ι) := (s.participants i).phase.window

/-- The one-time bundles of a peer that sessions were established with, in order. -/
def uses (peer : ι) : List PrekeyBundleStorable :=
  s.history.flatMap (Event.usesOf peer)

def books : Books ι where
  queue := s.queue
  pending i := (s.participants i).phase.pending
  next i := (s.participants i).owner.nextOneTimePrekeyId
  window := s.window
  uses := s.uses

/-- An attempt that keeps the requests of an establishment together. The repository handles
a publish or a consume request only when its response arrives, and a consume request is not
given up. A bundle is fetched while no initiator has a window on its owner, and an owner
uploads while no initiator has a window on its fallback. -/
def OrderlyAttempt (i : ι) : Call ι → Nat → Passage → Prop
  | .fetch peer _, _, .answered => ∀ j, (s.window j).all (fun w => w.peer ≠ peer) = true
  | .publish _, _, .answered =>
    ∀ j, (s.window j).all (fun w => w.peer ≠ i || w.bundle.isOneTime) = true
  | .publish _, _, .lost reached _ => reached = false
  | .publish _, _, .strayed => False
  | .consume _ _ _, attempt, .lost reached transient =>
    reached = false ∧ transient = true ∧ attempt < maxAttempts
  | .consume _ _ _, _, .strayed => False
  | _, _, _ => True

def OrderlyIn (i : ι) (passage : Passage) : Phase ι → Prop
  | .asking call attempt => s.OrderlyAttempt i call attempt passage
  | _ => True

def Orderly : Action ι → Prop
  | .attempt i passage => s.OrderlyIn i passage (s.participants i).phase
  | _ => True

end System

end Observation

section Steps

variable {ι : Type} [DecidableEq ι] {s : System ι} {i : ι}

def Call.Reads : Call ι → Prop
  | .publish _ => False
  | .consume _ _ _ => False
  | _ => True

namespace System

theorem books_become (s : System ι) (i : ι) (participant : Participant ι) :
    (s.become i participant).books = s.books.assign i participant.phase.pending
      participant.owner.nextOneTimePrekeyId participant.phase.window := by
  simp only [books, Books.assign]
  congr 1
  all_goals
    funext j
    by_cases hj : j = i
    · subst hj
      simp [become, window]
    · simp [become, window, hj]

variable {attempt : Nat} {call : Call ι} {rest : List ι} {peer : ι} {passage : Passage}

theorem serve_of_reads (h : call.Reads) : s.serve i call = s := by
  cases call with
  | publish batch | consume peer rest used => exact h.elim
  | _ => simp [serve, observe, Call.request, KeyRepository.handle]

theorem uses_serve (s : System ι) (i : ι) (call : Call ι) : (s.serve i call).uses = s.uses := by
  funext peer
  cases call <;> simp [uses, serve, observe, Event.usesOf]

theorem queue_serve_publish (s : System ι) (i : ι) (batch : PrekeyBundleBatchStorable) :
    (s.serve i (.publish batch)).queue = update s.queue i
      (KeyRepository.publishedQueue (s.queue i) batch.expand) := rfl

theorem queue_serve_consume (s : System ι) (i peer : ι) (rest : List ι)
    (used : PrekeyBundleStorable) : (s.serve i (.consume peer rest used)).queue =
      update s.queue peer (leftOf (s.queue peer)) :=
  s.repository.consumeOneTimePrekey_queue peer

/-- What is observed as removed is what the repository takes out of the queue. -/
theorem removed_append_queue (s : System ι) (i peer : ι) (rest : List ι)
    (used : PrekeyBundleStorable) : (consumedOf (s.queue peer)).toList ++
      (s.serve i (.consume peer rest used)).queue peer = s.queue peer := by
  rw [queue_serve_consume, update_self]
  cases s.queue peer with
  | nil => rfl
  | cons front queue =>
    cases hfront : front.isOneTime <;> simp [consumedOf, leftOf, Option.filter, hfront]

/-- The state of an orderly run. -/
structure Sound (s : System ι) : Prop where
  tracked : s.books.Tracked
  removals : ∀ event ∈ s.history, event.RemovesUsed
  strays_read : ∀ stray ∈ s.strays, stray.2.Reads

/-- A participant goes on without touching what others see. -/
theorem Sound.turn (h : s.Sound) {participant : Participant ι}
    (hpending : participant.phase.pending.Sublist (s.participants i).phase.pending)
    (hnext : (s.participants i).owner.nextOneTimePrekeyId ≤ participant.owner.nextOneTimePrekeyId)
    (hwindow : participant.phase.window = s.window i ∨ participant.phase.window = none ∧
      ∀ w, s.window i = some w → w.established = false) : (s.become i participant).Sound where
  tracked := by
    rw [books_become]
    exact h.tracked.turn hpending hnext hwindow
  removals := h.removals
  strays_read := h.strays_read

theorem Sound.pack (h : s.Sound) {draw : Nat → DrawnKeys} {count : Nat}
    {next : PrekeyBundleBatchStorable → Call ι} (hwindow : s.window i = none)
    (hcall : ∀ batch, (Phase.asking (next batch) 1).pending = batch.expand ∧
      (Phase.asking (next batch) 1).window = none) :
    (s.become i (Participant.pack
      ((s.participants i).owner.generatePublishablePrekeyBundles draw count) next)).Sound := by
  cases hgenerated : ((s.participants i).owner.generatePublishablePrekeyBundles draw count).1.bind
      prekeyBundleBatch with
  | error cause =>
    apply h.turn
    · simp only [Participant.pack, hgenerated]
      exact nil_sublist _
    · exact PrekeyOwner.generateOneTimePrekeys_next_le draw count _
    · simp only [Participant.pack, hgenerated]
      exact .inl hwindow.symm
  | ok batch =>
    cases hbundles : ((s.participants i).owner.generatePublishablePrekeyBundles draw count).1 with
    | error cause =>
      rw [hbundles] at hgenerated
      cases hgenerated
    | ok bundles =>
      have hbatch : prekeyBundleBatch bundles = .ok batch := by
        rw [hbundles] at hgenerated
        exact hgenerated
      obtain ⟨hids, hcounter⟩ := PrekeyOwner.generatePublishablePrekeyBundles_ids hbundles
      have hfresh := prekeyBundleBatch_ids hbatch
      rw [hids] at hfresh
      refine ⟨?_, h.removals, h.strays_read⟩
      rw [books_become]
      simp only [Participant.pack, hgenerated, hcall batch, hcounter]
      exact h.tracked.issue hfresh hwindow

/-- A failed attempt is repeated, or the call is given up and no used bundle is at stake. -/
theorem Sound.retry (h : s.Sound) {transient : Bool}
    (hphase : (s.participants i).phase = .asking call attempt)
    (hkeep : s.window i = none ∨ transient = true ∧ attempt < maxAttempts) :
    (s.setPhase i (call.retry attempt transient)).Sound := by
  rw [Call.retry]
  split
  · apply h.turn
    · rw [hphase]
      cases call <;> exact Sublist.refl _
    · exact Nat.le_refl _
    · rw [window, hphase]
      cases call <;> exact .inl rfl
  · rename_i hgiven
    have hwindow := hkeep.resolve_right hgiven
    apply h.turn
    · cases call <;> exact nil_sublist _
    · exact Nat.le_refl _
    · rw [hwindow]
      cases call <;> exact .inl rfl

theorem Sound.start (h : s.Sound) (hphase : (s.participants i).phase = .resting)
    (command : Command ι) : (s.become i ((s.participants i).owner.start command)).Sound := by
  have hwindow : s.window i = none := by rw [window, hphase]; rfl
  cases command with
  | generatePrekeyBundle draw => exact h.pack hwindow fun batch => ⟨rfl, rfl⟩
  | updateOneTimePrekeys draw | establishSessions participants =>
    exact h.turn (nil_sublist _) (Nat.le_refl _) (.inl hwindow.symm)

theorem Sound.select (h : s.Sound) {peers : List ι}
    (hphase : (s.participants i).phase = .selecting peers) (hasSession : Bool) :
    (s.setPhase i (selectPeer hasSession peers)).Sound := by
  have hwindow : s.window i = none := by rw [window, hphase]; rfl
  cases peers with
  | nil => exact h.turn (nil_sublist _) (Nat.le_refl _) (.inl hwindow.symm)
  | cons peer rest =>
    cases hasSession with
    | true | false => exact h.turn (nil_sublist _) (Nat.le_refl _) (.inl hwindow.symm)

theorem Sound.process (h : s.Sound) (hphase : (s.participants i).phase = .holding peer rest bundle)
    (accepted : Bool) : (s.process i peer rest bundle accepted).Sound := by
  have hwindow : s.window i = some ⟨peer, bundle, false⟩ := by rw [window, hphase]; rfl
  rw [System.process]
  split
  · refine ⟨?_, ?_, h.strays_read⟩
    · have huses : (s.note [.established i peer bundle]).uses =
          update s.uses peer (s.uses peer ++ oneTimeBundles [bundle]) := by
        funext owner
        by_cases howner : owner = peer
        · subst howner
          simp [note, uses, Event.usesOf]
        · simp [note, uses, Event.usesOf, howner, Ne.symm howner]
      have hbooks : (s.note [.established i peer bundle]).books.assign i []
          (s.books.next i) (some ⟨peer, bundle, true⟩) =
            (s.books.use i peer bundle).assign i [] (s.books.next i)
              (some ⟨peer, bundle, true⟩) := by
        simp only [books, huses, Books.assign, Books.use, update_idem]
        rfl
      rw [setPhase, books_become]
      refine hbooks ▸ ?_
      exact (h.tracked.use hwindow).settle (update_self ..)
    · intro event hevent
      rcases mem_append.mp hevent with hold | hnew
      · exact h.removals event hold
      · obtain rfl := mem_singleton.mp hnew
        trivial
  · refine h.turn (nil_sublist _) (Nat.le_refl _) (.inr ⟨rfl, ?_⟩)
    intro w hw
    rw [hwindow] at hw
    cases hw
    rfl

/-- An upload whose response arrives. -/
theorem Sound.publish (h : s.Sound) {batch : PrekeyBundleBatchStorable}
    (hphase : (s.participants i).phase = .asking (.publish batch) attempt)
    (horderly : s.OrderlyAttempt i (.publish batch) attempt .answered) :
    (s.exchange i (.publish batch) attempt .answered).Sound := by
  have hwindow : s.window i = none := by rw [window, hphase]; rfl
  have hbooks : (s.serve i (.publish batch)).books.assign i [] (s.books.next i) none =
      (s.books.upload i).assign i [] (s.books.next i) none := by
    have hpending : (s.participants i).phase.pending = batch.expand := by rw [hphase]; rfl
    simp only [books, uses_serve, queue_serve_publish, Books.assign, Books.upload,
      update_idem, hpending]
    rfl
  refine ⟨?_, ?_, h.strays_read⟩
  · rw [exchange, books_become]
    refine hbooks ▸ ?_
    refine Books.Tracked.settle (h.tracked.upload ?_) hwindow
    intro j w hw hpeer
    have hall := horderly j
    rw [show s.window j = some w from hw] at hall
    simpa [hpeer] using hall
  · intro event hevent
    exact h.removals event (by simpa [exchange, serve, observe, become] using hevent)

/-- A consume request whose response arrives. -/
theorem Sound.consume (h : s.Sound) {used : PrekeyBundleStorable}
    (hphase : (s.participants i).phase = .asking (.consume peer rest used) attempt) :
    (s.exchange i (.consume peer rest used) attempt .answered).Sound := by
  have hwindow : s.window i = some ⟨peer, used, true⟩ := by rw [window, hphase]; rfl
  have hbooks : (s.serve i (.consume peer rest used)).books.assign i [] (s.books.next i) none =
      (s.books.consume i peer).assign i [] (s.books.next i) none := by
    simp only [books, uses_serve, queue_serve_consume, Books.assign, Books.consume,
      update_idem]
    rfl
  refine ⟨?_, ?_, h.strays_read⟩
  · rw [exchange, books_become]
    refine hbooks ▸ ?_
    exact (h.tracked.consume hwindow).settle (update_self ..)
  · intro event hevent
    rcases mem_append.mp hevent with hold | hnew
    · exact h.removals event hold
    · obtain rfl := mem_singleton.mp hnew
      have hfront : (s.queue peer).head? = some used := h.tracked.front i _ hwindow
      rw [Event.RemovesUsed, consumedOf, hfront, Option.filter_some]

/-- A fetch whose response arrives. -/
theorem Sound.fetch (h : s.Sound)
    (hphase : (s.participants i).phase = .asking (.fetch peer rest) attempt)
    (horderly : s.OrderlyAttempt i (.fetch peer rest) attempt .answered) :
    (s.exchange i (.fetch peer rest) attempt .answered).Sound := by
  have hwindow : s.window i = none := by rw [window, hphase]; rfl
  have hreads : (Call.fetch peer rest).Reads := trivial
  rw [exchange, serve_of_reads hreads]
  simp only [Call.request, KeyRepository.handle, KeyRepository.fetchPrekeyBundle]
  cases hfront : (s.repository.prekeyBundles peer).head? with
  | none => exact h.turn (nil_sublist _) (Nat.le_refl _) (.inl hwindow.symm)
  | some bundle =>
    refine ⟨?_, h.removals, h.strays_read⟩
    have hfree : ∀ j w, s.window j = some w → w.peer ≠ peer := by
      intro j w hw
      have hall := horderly j
      rw [hw] at hall
      simpa using hall
    have hreserved := (h.tracked.reserve hfront hfree hwindow).settle (update_self ..)
    simp only [Books.reserve, Books.assign, update_idem] at hreserved
    rw [books_become]
    exact hreserved

section

variable (hphase : (s.participants i).phase = .asking call attempt)
include hphase

/-- The response to a stock request arrives. -/
theorem Sound.stock (h : s.Sound) (hrequest : call.request i = .getPrekeyStock i) :
    (s.exchange i call attempt .answered).Sound := by
  have hreads : call.Reads := by
    cases call with
    | publish batch | consume peer rest used => cases hrequest
    | _ => trivial
  have hwindow : s.window i = none := by
    rw [window, hphase]
    cases call with
    | consume peer rest used => cases hrequest
    | _ => rfl
  rw [exchange, serve_of_reads hreads, hrequest]
  simp only [KeyRepository.handle]
  cases call with
  | stockBefore batch =>
    refine h.turn ?_ (Nat.le_refl _) (.inl hwindow.symm)
    rw [hphase]
    exact Sublist.refl _
  | stockForUpdate draw =>
    rw [PrekeyOwner.resume]
    split
    · exact h.turn (nil_sublist _) (Nat.le_refl _) (.inl hwindow.symm)
    · exact h.pack hwindow fun batch => ⟨rfl, rfl⟩
  | stockAfter => exact h.turn (nil_sublist _) (Nat.le_refl _) (.inl hwindow.symm)
  | publish batch | fetch peer rest | consume peer rest used => cases hrequest

/-- An attempt of a reading call that ends without a response. -/
theorem Sound.unanswered (h : s.Sound) (hreads : call.Reads) (hpassage : passage ≠ .answered) :
    (s.exchange i call attempt passage).Sound := by
  have hwindow : s.window i = none := by
    rw [window, hphase]
    cases call with
    | consume peer rest used => exact hreads.elim
    | _ => rfl
  cases passage with
  | answered => exact absurd rfl hpassage
  | lost reached transient =>
    cases reached with
    | true =>
      rw [exchange, serve_of_reads hreads]
      exact h.retry hphase (.inl hwindow)
    | false => exact h.retry hphase (.inl hwindow)
  | strayed =>
    have hstray : ({ s with strays := s.strays ++ [(i, call)] } : System ι).Sound := by
      refine ⟨h.tracked, h.removals, ?_⟩
      intro stray hmem
      rcases mem_append.mp hmem with hold | hnew
      · exact h.strays_read stray hold
      · obtain rfl := mem_singleton.mp hnew
        exact hreads
    exact hstray.retry hphase (.inl hwindow)

theorem Sound.exchange (h : s.Sound) (horderly : s.OrderlyAttempt i call attempt passage) :
    (s.exchange i call attempt passage).Sound := by
  by_cases hpassage : passage = .answered
  · subst hpassage
    cases call with
    | stockBefore batch | stockForUpdate draw | stockAfter => exact h.stock hphase rfl
    | publish batch => exact h.publish hphase horderly
    | fetch peer rest => exact h.fetch hphase horderly
    | consume peer rest used => exact h.consume hphase
  · cases call with
    | publish batch =>
      cases passage with
      | answered => exact absurd rfl hpassage
      | lost reached transient =>
        obtain rfl : reached = false := horderly
        exact h.retry hphase (.inl (by rw [window, hphase]; rfl))
      | strayed => exact horderly.elim
    | consume peer rest used =>
      cases passage with
      | answered => exact absurd rfl hpassage
      | lost reached transient =>
        obtain ⟨rfl, hkeep⟩ : reached = false ∧ transient = true ∧ attempt < maxAttempts := horderly
        exact h.retry hphase (.inr hkeep)
      | strayed => exact horderly.elim
    | _ => exact h.unanswered hphase trivial hpassage

end

theorem Sound.step (h : s.Sound) {action : Action ι} (horderly : s.Orderly action) :
    (s.step action).Sound := by
  cases action with
  | start i command =>
    cases hphase : (s.participants i).phase with
    | resting =>
      simp only [System.step, hphase]
      exact h.start hphase command
    | _ =>
      simp only [System.step, hphase]
      exact h
  | proceed i outcome =>
    cases hphase : (s.participants i).phase with
    | selecting peers =>
      simp only [System.step, hphase]
      exact h.select hphase outcome
    | holding peer rest bundle =>
      simp only [System.step, hphase]
      exact h.process hphase outcome
    | _ =>
      simp only [System.step, hphase]
      exact h
  | attempt i passage =>
    cases hphase : (s.participants i).phase with
    | asking call attempt =>
      simp only [System.step, hphase]
      rw [Orderly, hphase] at horderly
      exact h.exchange hphase horderly
    | _ =>
      simp only [System.step, hphase]
      exact h
  | arrive index =>
    rw [System.step]
    split
    · rename_i i call hstray
      have hreads : call.Reads := h.strays_read (i, call) (mem_of_getElem? hstray)
      rw [serve_of_reads hreads]
      exact ⟨h.tracked, h.removals, fun stray hmem =>
        h.strays_read stray (mem_of_mem_eraseIdx hmem)⟩
    · exact h

theorem initial_sound (owners : ι → PrekeyOwner) : (initial owners).Sound where
  tracked := {
    distinct := fun _ => nodup_nil
    supply_issued := fun _ _ => nofun
    uses_issued := fun _ _ => nofun
    uses_one_time := fun _ _ => nofun
    used_once := fun _ => nodup_nil
    spent := fun _ _ => nofun
    front := fun _ _ => nofun
    alone := fun _ _ _ _ => nofun
    unused := fun _ _ => nofun }
  removals := fun _ => nofun
  strays_read := fun _ => nofun

end System

end Steps

section Runs

variable {ι : Type} [DecidableEq ι]

/-- In every run whose attempts keep the requests of an establishment together, no two
establishments use the same one-time bundle, and every consume request removes what its
initiator used. -/
theorem one_time_bundles_used_once {owners : ι → PrekeyOwner} {actions : List (Action ι)}
    (horderly : Guarded System.step System.Orderly (.initial owners) actions) :
    (∀ peer, ((execute System.step (.initial owners) actions).uses peer).Nodup) ∧
      ∀ event ∈ (execute System.step (.initial owners) actions).history, event.RemovesUsed := by
  have hstep : ∀ (s : System ι) action, s.Sound → s.Orderly action → (s.step action).Sound :=
    fun _ _ hs horderly => hs.step horderly
  have hsound := horderly.invariant hstep (System.initial_sound owners)
  exact ⟨hsound.tracked.used_once, hsound.removals⟩

/-- With finitely many participants it can be tested whether an action is orderly. -/
instance decidableOrderlyAttempt {n : Nat} (s : System (Fin n)) (i : Fin n) (call : Call (Fin n))
    (attempt : Nat) (passage : Passage) : Decidable (s.OrderlyAttempt i call attempt passage) :=
  match call, passage with
  | .fetch peer _, .answered =>
    inferInstanceAs (Decidable (∀ j, (s.window j).all (fun w => w.peer ≠ peer) = true))
  | .fetch _ _, .lost _ _ => isTrue trivial
  | .fetch _ _, .strayed => isTrue trivial
  | .publish _, .answered => inferInstanceAs (Decidable
      (∀ j, (s.window j).all (fun w => w.peer ≠ i || w.bundle.isOneTime) = true))
  | .publish _, .lost reached _ => inferInstanceAs (Decidable (reached = false))
  | .publish _, .strayed => isFalse id
  | .consume _ _ _, .answered => isTrue trivial
  | .consume _ _ _, .lost reached transient => inferInstanceAs (Decidable
      (reached = false ∧ transient = true ∧ attempt < maxAttempts))
  | .consume _ _ _, .strayed => isFalse id
  | .stockBefore _, _ => isTrue trivial
  | .stockForUpdate _, _ => isTrue trivial
  | .stockAfter, _ => isTrue trivial

instance decidableOrderlyIn {n : Nat} (s : System (Fin n)) (i : Fin n) (passage : Passage)
    (phase : Phase (Fin n)) : Decidable (s.OrderlyIn i passage phase) :=
  match phase with
  | .asking call attempt => decidableOrderlyAttempt s i call attempt passage
  | .resting => isTrue trivial
  | .selecting _ => isTrue trivial
  | .holding _ _ _ => isTrue trivial

instance decidableOrderly {n : Nat} (s : System (Fin n)) (action : Action (Fin n)) :
    Decidable (s.Orderly action) :=
  match action with
  | .start _ _ => isTrue trivial
  | .proceed _ _ => isTrue trivial
  | .arrive _ => isTrue trivial
  | .attempt i passage => decidableOrderlyIn s i passage (s.participants i).phase

/-- An owner with two one-time prekeys in its first upload. -/
abbrev exampleOwner : PrekeyOwner where
  registrationId := 7
  signedPrekeyId := 1
  signedPrekeyPublic := [1]
  signedPrekeySignature := [2]
  identityKeyPublic := [3]
  lastResortPqPrekeyId := 9
  lastResortPqPrekeyPublic := [4]
  lastResortPqPrekeySignature := [5]
  nextOneTimePrekeyId := 1
  initialOneTimePrekeyCount := 2
  oneTimePrekeyRefillCount := 1
  oneTimePrekeyLowWatermark := 1

abbrev exampleKeys (id : Nat) : DrawnKeys := ⟨[UInt8.ofNat id], [UInt8.ofNat id], [0]⟩

/-- Participant 0 uploads its first bundles. -/
abbrev firstUpload : List (Action (Fin 3)) :=
  [.start 0 (.generatePrekeyBundle exampleKeys), .attempt 0 .answered, .attempt 0 .answered,
    .attempt 0 .answered]

/-- Two establishments one after the other, the first with a lost consume request and the
second beside a refill of the owner. -/
theorem one_time_bundles_used_once_in_turn : let actions : List (Action (Fin 3)) := firstUpload ++
      [.start 1 (.establishSessions [0]), .proceed 1 false, .attempt 1 .answered, .proceed 1 true,
        .attempt 1 (.lost false true), .attempt 1 .answered, .proceed 1 false,
        .start 2 (.establishSessions [0]), .proceed 2 false, .attempt 2 .answered,
        .start 0 (.updateOneTimePrekeys exampleKeys), .attempt 0 .answered, .attempt 0 .answered,
        .proceed 2 true, .attempt 2 .answered]
    let s := execute System.step (.initial fun _ => exampleOwner) actions
    (s.uses 0).map (·.prekeyId) = [some 1, some 2] ∧
      (s.queue 0).map (·.prekeyId) = [some 3, none] ∧
      (∀ peer, (s.uses peer).Nodup) ∧ ∀ event ∈ s.history, event.RemovesUsed :=
  ⟨by decide +kernel, by decide +kernel, one_time_bundles_used_once (by decide +kernel)⟩

/-- Two initiators fetch before either consumes: both use the first bundle of their peer, and
the second consume request removes the second bundle, which nobody used. -/
theorem one_time_bundle_used_twice : let actions : List (Action (Fin 3)) := firstUpload ++
      [.start 1 (.establishSessions [0]), .proceed 1 false, .attempt 1 .answered,
        .start 2 (.establishSessions [0]), .proceed 2 false, .attempt 2 .answered,
        .proceed 1 true, .attempt 1 .answered, .proceed 2 true, .attempt 2 .answered]
    let s := execute System.step (.initial fun _ => exampleOwner) actions
    (s.uses 0).map (·.prekeyId) = [some 1, some 1] ∧ ¬ (s.uses 0).Nodup ∧
      s.history.filterMap (fun event => match event with
        | .established _ _ _ => none
        | .consumed initiator _ used removed =>
          some (initiator, used.prekeyId, removed.bind (·.prekeyId))) =
        [((1 : Fin 3), some 1, some 1), (2, some 1, some 2)] := by
  decide +kernel

end Runs

end MessagingBench.Signal.Prekeys
