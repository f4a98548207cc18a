import MessagingBench.Delivery.Interleaving
import Mathlib.Data.List.Chain

/-!
# Order of deliveries under concurrent publishers

If every recipient's deliveries are enqueued in the order of acceptance, then fetching and
acknowledging returns the commits addressed to it in order and without gaps. Nothing in the
service enforces that order: two short schedules show a delivery overtaken in an inbox and
one lost behind the cursor of the log.
-/

namespace MessagingBench.Delivery

open List DeliveryService Function

section Service

variable {ds : DeliveryService} {order : List String} {r g : String}
  {selected : Option (String × GroupLogCommit)} {d : PendingCommitDelivery}

theorem foldl_selectCommit_some
    (hsel : ∀ x ∈ selected, (logOf ds x.1).find?
      (pendingInLog r (ds.commitCursor r x.1)) = some x.2) :
    ∀ x ∈ order.foldl (ds.selectCommit r) selected, (logOf ds x.1).find?
      (pendingInLog r (ds.commitCursor r x.1)) = some x.2 := by
  induction order generalizing selected with
  | nil => exact hsel
  | cons g order ih =>
    refine ih fun x hx => ?_
    simp only [selectCommit] at hx
    cases hfind : ((ds.groupCommitLog g).getD []).find?
        (pendingInLog r (ds.commitCursor r g)) with
    | none =>
      rw [hfind] at hx
      exact hsel x hx
    | some c =>
      rw [hfind] at hx
      cases selected with
      | none =>
        cases hx
        exact hfind
      | some current =>
        simp only at hx
        split at hx
        · cases hx
          exact hfind
        · exact hsel x hx

/-- The walk selects nothing only if no visited group has a pending commit. -/
theorem foldl_selectCommit_none (h : order.foldl (ds.selectCommit r) selected = none) :
    selected = none ∧ ∀ g ∈ order, (logOf ds g).find?
      (pendingInLog r (ds.commitCursor r g)) = none := by
  induction order generalizing selected with
  | nil => exact ⟨h, fun g hg => (not_mem_nil hg).elim⟩
  | cons g order ih =>
    obtain ⟨hstep, hrest⟩ := ih h
    simp only [selectCommit] at hstep
    cases hfind : ((ds.groupCommitLog g).getD []).find?
        (pendingInLog r (ds.commitCursor r g)) with
    | none =>
      rw [hfind] at hstep
      refine ⟨hstep, fun g' hg' => ?_⟩
      rcases mem_cons.mp hg' with rfl | hg'
      · exact hfind
      · exact hrest g' hg'
    | some c =>
      rw [hfind] at hstep
      cases selected with
      | none => cases hstep
      | some current =>
        simp only at hstep
        split at hstep <;> cases hstep

theorem head_queued_of_fetch (h : ds.fetchPendingCommitDelivery order r = some d) :
    (ds.queued r d.groupId).head? = some d := by
  obtain ⟨record, hrecord, rfl⟩ := Option.map_eq_some_iff.mp h
  simp only [fetchNextPendingCommit] at hrecord
  cases hmode : ds.deliveryMode with
  | perRecipient =>
    rw [hmode, peekCommitInbox_eq] at hrecord
    obtain ⟨rest, hqueue⟩ := head?_eq_some_iff.mp hrecord
    simp [queued, hmode, hqueue, CommitDeliveryRecord.pending]
  | groupLog =>
    simp only [hmode, fetchGroupLogCommitCompat] at hrecord
    obtain ⟨⟨g, c⟩, hsel, rfl⟩ := Option.map_eq_some_iff.mp hrecord
    have hfind := foldl_selectCommit_some (fun _ hx => by cases hx) (g, c) hsel
    simp only [queued, hmode, head?_map, head?_filter]
    rw [CommitDeliveryRecord.pending, hfind]
    rfl

/-- A fetch that meets every group with something queued returns nothing only if
nothing is queued. -/
theorem queued_of_fetch_none (h : ds.fetchPendingCommitDelivery order r = none)
    (horder : ds.deliveryMode = .groupLog → ds.queued r g ≠ [] → g ∈ order) :
    ds.queued r g = [] := by
  by_contra hne
  have hnone := Option.map_eq_none_iff.mp h
  simp only [fetchNextPendingCommit] at hnone
  apply hne
  cases hmode : ds.deliveryMode with
  | perRecipient =>
    rw [hmode, peekCommitInbox_eq] at hnone
    simp [queued, hmode, head?_eq_none_iff.mp hnone]
  | groupLog =>
    simp only [hmode, fetchGroupLogCommitCompat] at hnone
    obtain ⟨_, hfind⟩ := foldl_selectCommit_none (Option.map_eq_none_iff.mp hnone)
    simp only [queued, hmode]
    rw [filter_eq_nil_iff.mpr (find?_eq_none.mp (hfind g (horder hmode hne)))]
    rfl

/-- Acknowledging in an inbox drops the deliveries with the identifier. -/
theorem queued_ack_inbox (hmode : ds.deliveryMode = .perRecipient) (order : List String)
    (r deliveryId r' g : String) :
    (ds.ackCommit order r deliveryId).2.queued r' g =
      if r = r' then (ds.queued r' g).filter (·.id != deliveryId) else ds.queued r' g := by
  have hqueue := next_commitInboxQueue order hmode (.ackCommit r deliveryId) r'
  have hmode' := (next_deliveryMode order ds (.ackCommit r deliveryId)).trans hmode
  simp only [next, perform, Prod.map_snd, id, observe] at hqueue hmode'
  simp only [queued, hmode', hmode, hqueue]
  by_cases hr : r = r'
  · simp only [hr, ite_true, filter_map, filter_filter]
    congr 1
    apply filter_congr
    intro d _
    exact Bool.and_comm _ _
  · simp [hr]

/-- Acknowledging in the log moves one cursor. -/
theorem ack_log (hmode : ds.deliveryMode = .groupLog) {deliveryId : String}
    {found : GroupLogCommit}
    (hfound : (order.findSome? fun g => (ds.ackedInLog r deliveryId g).map (g, ·)) =
      some (g, found)) :
    (ds.ackCommit order r deliveryId).2 = { ds with
      commitCursors := update ds.commitCursors (r, g)
        (some (max (ds.commitCursor r g) found.epoch)) } := by
  simp only [ackCommit, hmode, ackGroupLogCommitCompat, hfound]

/-- An acknowledgement touches inboxes and cursors only. -/
theorem ackCommit_frame {ds : DeliveryService} {order : List String} {r deliveryId : String} :
    ∃ inboxes cursors, (ds.ackCommit order r deliveryId).2 =
      { ds with commitInboxes := inboxes, commitCursors := cursors } := by
  simp only [ackCommit, ackGroupLogCommitCompat]
  split <;> split <;> exact ⟨_, _, rfl⟩

theorem cursor_lt_of_mem_queued (hmode : ds.deliveryMode = .groupLog)
    (hd : d ∈ ds.queued r g) : ds.commitCursor r g < d.epoch := by
  simp only [queued, hmode] at hd
  obtain ⟨c, hc, rfl⟩ := mem_map.mp hd
  exact (pendingInLog_iff.mp (mem_filter.mp hc).2).1

/-- Raising a cursor drops the queued deliveries up to the new position. -/
theorem queued_raise (hmode : ds.deliveryMode = .groupLog) {epoch : Epoch}
    (hle : ds.commitCursor r g ≤ epoch) (r' g' : String) :
    ({ ds with commitCursors := update ds.commitCursors (r, g) (some epoch) } :
      DeliveryService).queued r' g' =
      if r' = r ∧ g' = g then (ds.queued r' g').filter (fun d => decide (epoch < d.epoch))
      else ds.queued r' g' := by
  by_cases hcase : r' = r ∧ g' = g
  · obtain ⟨rfl, rfl⟩ := hcase
    simp only [queued, hmode, commitCursor, update_self,
      Option.getD_some, and_self, ite_true, filter_map]
    exact congrArg _ (filter_pendingInLog hle)
  · have hcursor : update ds.commitCursors (r, g) (some epoch) (r', g') =
        ds.commitCursors (r', g') :=
      update_of_ne (fun heq => hcase (Prod.mk.inj heq)) ..
    simp only [queued, hmode, commitCursor, hcursor, hcase, ite_false]
    rfl

end Service

theorem succ_lt_succ {a b m : Epoch} (h : a < b) (hb : b < m) : a + 1 < b + 1 := by
  have hm : m.toNat ≤ 18446744073709551615 := Nat.le_of_lt_succ m.toNat_lt
  rw [UInt64.lt_iff_toNat_lt] at h hb ⊢
  have ha' : a < maxEpoch := UInt64.lt_iff_toNat_lt.mpr (Nat.lt_of_lt_of_le (h.trans hb) hm)
  have hb' : b < maxEpoch := UInt64.lt_iff_toNat_lt.mpr (Nat.lt_of_lt_of_le hb hm)
  rw [toNat_succ ha', toNat_succ hb']
  omega

namespace Interleaved

/-- What holds as long as deliveries are enqueued in the order of acceptance. -/
structure Ordered (s : Interleaved) : Prop where
  fresh : ∀ i, s.accepted.length ≤ i → s.sections i = 0
  increasing : ∀ g, (s.accepted.filter (·.groupId == g)).Pairwise fun c c' => c.epoch < c'.epoch
  bound : ∀ c ∈ s.accepted, ∃ state, s.service.groups c.groupId = some state ∧
    c.epoch < state.currentEpoch
  closed : ∀ r g, DownClosed Prod.snd (s.view r g) (s.isEnqueued r)
  exact : ∀ r g, ((s.view r g).filter (s.isEnqueued r)).map (fun x => x.1.delivery r) =
    s.obtainedIn r g ++ s.service.queued r g
  front : ∀ r, ∀ d ∈ s.fetched r, (s.service.queued r d.groupId).head? = some d
  logged : s.service.deliveryMode = .groupLog → ∀ r g,
    ((logOf s.service g).filter (·.recipients.contains r)).map (GroupLogCommit.delivery g r) =
      s.obtainedIn r g ++ s.service.queued r g
  cursor : s.service.deliveryMode = .groupLog → ∀ r g, s.service.commitCursor r g = 0 ∨
    ∃ d ∈ s.obtainedIn r g, d.epoch = s.service.commitCursor r g

variable (mode : CommitDeliveryMode)

theorem ordered_start : Ordered (start mode) := by
  have hqueued : ∀ r g, (start mode).service.queued r g = [] := by
    intro r g
    cases mode <;> rfl
  refine ⟨fun _ _ => rfl, fun _ => Pairwise.nil, ?_, ?_, ?_, ?_, ?_, fun _ _ _ => .inl rfl⟩
  · exact fun c hc => (not_mem_nil hc).elim
  · exact fun r g x hx => (not_mem_nil hx).elim
  · intro r g
    rw [hqueued]
    rfl
  · exact fun r d hd => by cases hd
  · intro _ r g
    rw [hqueued]
    rfl

namespace Ordered

variable {s : Interleaved}

/-- The commits addressed to a recipient carry strictly increasing epochs. -/
theorem addressed_pairwise (h : Ordered s) (r g : String) :
    (s.addressed r g).Pairwise fun d d' => d.epoch < d'.epoch := by
  rw [addressed, pairwise_map]
  have hsub : (s.accepted.filter fun c => c.groupId == g && c.members.contains r) =
      (s.accepted.filter (·.groupId == g)).filter (·.members.contains r) := by
    rw [filter_filter]
    apply filter_congr
    intro c _
    exact Bool.and_comm _ _
  rw [hsub]
  refine ((h.increasing g).sublist filter_sublist).imp_of_mem ?_
  intro c c' _ hc' hlt
  obtain ⟨state, _, hbound⟩ := h.bound c' (mem_of_mem_filter (mem_of_mem_filter hc'))
  exact succ_lt_succ hlt hbound

/-- What a recipient has obtained and what is queued for it is an initial segment of
what is addressed to it. -/
theorem total_isPrefix (h : Ordered s) (r g : String) :
    s.obtainedIn r g ++ s.service.queued r g <+: s.addressed r g := by
  rw [← h.exact r g, addressed_eq]
  exact (DownClosed.filter_isPrefix (s.view_pairwise r g) (h.closed r g)).map _

theorem total_pairwise (h : Ordered s) (r g : String) :
    (s.obtainedIn r g ++ s.service.queued r g).Pairwise fun d d' => d.epoch < d'.epoch :=
  (h.addressed_pairwise r g).sublist (h.total_isPrefix r g).sublist

theorem exists_of_mem_total (h : Ordered s) {r g : String} {d : PendingCommitDelivery}
    (hd : d ∈ s.obtainedIn r g ++ s.service.queued r g) :
    ∃ x ∈ s.view r g, s.isEnqueued r x = true ∧ x.1.delivery r = d := by
  rw [← h.exact r g] at hd
  obtain ⟨x, hx, rfl⟩ := mem_map.mp hd
  exact ⟨x, (mem_filter.mp hx).1, (mem_filter.mp hx).2, rfl⟩

/-- Two deliveries of one group with one identifier carry one epoch. -/
theorem epoch_of_id (h : Ordered s) {r g : String} {d d' : PendingCommitDelivery}
    (hd : d ∈ s.service.queued r g) (hd' : d' ∈ s.service.queued r g) (hid : d.id = d'.id) :
    d.epoch = d'.epoch := by
  obtain ⟨x, hx, _, rfl⟩ := h.exists_of_mem_total (mem_append_right _ hd)
  obtain ⟨x', hx', _, rfl⟩ := h.exists_of_mem_total (mem_append_right _ hd')
  obtain ⟨_, hg, _⟩ := mem_view.mp hx
  obtain ⟨_, hg', _⟩ := mem_view.mp hx'
  have hentry : x.1.logEntry.deliveryId g r = x'.1.logEntry.deliveryId g r := by
    simpa only [AcceptedCommit.delivery, AcceptedCommit.record, deliveryRecord,
      CommitDeliveryRecord.pending, GroupLogCommit.deliveryId, AcceptedCommit.logEntry, hg, hg']
      using hid
  exact deliveryId_epoch hentry

theorem put (h : Ordered s) (groupId : String) (epoch : Epoch) (members : List String) :
    Ordered (s.step (.putGroupState groupId epoch members)) := by
  have hbound : ∀ c ∈ s.accepted, ∃ state,
      (s.service.putGroupState groupId epoch members).2.groups c.groupId = some state ∧
        c.epoch < state.currentEpoch := by
    intro c hc
    obtain ⟨state, hst, hlt⟩ := h.bound c hc
    have hepoch : epochOf s.service c.groupId = some state.currentEpoch := by simp [epochOf, hst]
    rcases next_epochOf [] hepoch (.putGroupState groupId epoch members) with
      ⟨_, hobs, _⟩ | ⟨_, hnext⟩
    · cases hobs
    · obtain ⟨state', hst', he⟩ := Option.map_eq_some_iff.mp hnext
      exact ⟨state', hst', he ▸ hlt⟩
  obtain ⟨groups, hframe⟩ := putGroupState_frame s.service groupId epoch members
  simp only [step]
  rw [hframe] at hbound ⊢
  exact ⟨h.fresh, h.increasing, hbound, h.closed, h.exact, h.front, h.logged, h.cursor⟩

/-- Acceptance appends a commit that no section has enqueued yet. -/
theorem append (h : Ordered s) {c : AcceptedCommit} {state : GroupState}
    (hst : s.service.groups c.groupId = some state) (hepoch : c.epoch = state.currentEpoch)
    (hlt : c.epoch < c.epoch + 1) :
    Ordered { s with
      service := { s.service with
        groups := update s.service.groups c.groupId
          (some { state with currentEpoch := state.currentEpoch + 1 }) }
      accepted := s.accepted ++ [c] } := by
  have hold : ∀ c' ∈ s.accepted, c'.groupId = c.groupId → c'.epoch < c.epoch := by
    intro c' hc' hg
    obtain ⟨state', hst', hlt'⟩ := h.bound c' hc'
    rw [hg, hst] at hst'
    cases hst'
    rw [hepoch]
    exact hlt'
  have hnot : ∀ r, s.isEnqueued r (c, s.accepted.length) = false := by
    intro r
    rw [isEnqueued, h.fresh _ (Nat.le_refl _)]
    exact enqueuedFor_zero _ _ _
  refine ⟨?_, ?_, ?_, ?_, ?_, h.front, h.logged, h.cursor⟩
  · intro i hi
    rw [length_append] at hi
    exact h.fresh i (by omega)
  · intro g
    rw [filter_append, pairwise_append]
    refine ⟨h.increasing g, (pairwise_singleton _ c).sublist filter_sublist, ?_⟩
    intro c' hc' c'' hc''
    obtain ⟨hmem', hg'⟩ := mem_filter.mp hc'
    obtain ⟨hmem'', hg''⟩ := mem_filter.mp hc''
    obtain rfl := mem_singleton.mp hmem''
    exact hold c' hmem' ((beq_iff_eq.mp hg').trans (beq_iff_eq.mp hg'').symm)
  · intro c' hc'
    by_cases hg : c'.groupId = c.groupId
    · refine ⟨_, by rw [hg]; exact update_self .., ?_⟩
      rw [← hepoch]
      rcases mem_append.mp hc' with hc' | hc'
      · exact UInt64.lt_trans (hold c' hc' hg) hlt
      · rw [mem_singleton.mp hc']
        exact hlt
    · rcases mem_append.mp hc' with hc' | hc'
      · obtain ⟨state', hst', hlt'⟩ := h.bound c' hc'
        exact ⟨state', (update_of_ne hg ..).trans hst', hlt'⟩
      · exact (hg (congrArg _ (mem_singleton.mp hc'))).elim
  · intro r g x hx y hy hxy hsel
    rw [view_append] at hx hy
    rcases mem_append.mp hy with hy | hy
    · rcases mem_append.mp hx with hx | hx
      · exact h.closed r g x hx y hy hxy hsel
      · obtain rfl := mem_singleton.mp (mem_of_mem_filter hx)
        obtain ⟨hlen, _⟩ := List.getElem?_eq_some_iff.mp (mem_view.mp hy).1
        exact absurd hxy (Nat.not_lt.mpr (Nat.le_of_lt hlen))
    · obtain rfl := mem_singleton.mp (mem_of_mem_filter hy)
      exact absurd ((hnot r).symm.trans hsel) Bool.false_ne_true
  · intro r g
    have hnone : ([(c, s.accepted.length)].filter fun x =>
        x.1.groupId == g && x.1.members.contains r).filter (s.isEnqueued r) = [] := by
      rw [filter_filter]
      simp [hnot r]
    rw [view_append, filter_append]
    exact (congrArg _ ((congrArg _ hnone).trans (append_nil _))).trans (h.exact r g)

theorem accept (h : Ordered s) (groupId sender : String) (epoch : Epoch) (commitBytes : Bytes)
    (hwrap : s.InAcceptanceOrder (.accept groupId sender epoch commitBytes)) :
    Ordered (s.step (.accept groupId sender epoch commitBytes)) := by
  simp only [step]
  cases hacc : s.service.acceptCommit groupId epoch with
  | error message => exact h
  | ok result =>
    obtain ⟨state, hst, rfl, _, hds⟩ := acceptCommit_eq_ok hacc
    simp only [hds]
    have hlt : state.currentEpoch < state.currentEpoch + 1 := by
      refine UInt64.lt_add_one fun hmax => hwrap ⟨hmax, ?_⟩
      rw [epochOf, hst, Option.map_some, hmax]
      rfl
    exact h.append (c := ⟨groupId, sender, state.currentEpoch, result.1, commitBytes⟩) hst rfl hlt

section Enqueue

variable {i : Nat} {c : AcceptedCommit} {service : DeliveryService}

/-- A section enqueues the commit of its own publisher for the recipients it reaches. -/
theorem isEnqueued_completeSection (hget : s.accepted[i]? = some c)
    (hservice : s.service.enqueueSection c (s.sections i) = some service) {r g : String}
    {x : AcceptedCommit × Nat} (hx : x ∈ s.view r g) :
    (s.completeSection i service).isEnqueued r x = (s.isEnqueued r x ||
      (x.2 == i && reaches s.service.deliveryMode c (s.sections i) r)) := by
  obtain ⟨hmode, _, _⟩ := enqueueSection_frame hservice
  simp only [isEnqueued, completeSection, hmode]
  by_cases hi : x.2 = i
  · have hc : x.1 = c := Option.some.inj ((mem_view.mp hx).1.symm.trans (hi ▸ hget))
    rw [hc, hi, update_self, enqueuedFor_succ hservice]
    simp
  · simp [hi]

variable (h : Ordered s) (hget : s.accepted[i]? = some c)
  (hservice : s.service.enqueueSection c (s.sections i) = some service)
  (hguard : s.InAcceptanceOrder (.enqueue i)) (r g : String)

include h hget hservice hguard in
/-- For a recipient that the section reaches, its commit is the next of the view. -/
theorem filter_of_reaches (hr : reaches s.service.deliveryMode c (s.sections i) r = true)
    (hg : c.groupId = g) :
    (s.view r g).filter ((s.completeSection i service).isEnqueued r) =
      (s.view r g).filter (s.isEnqueued r) ++ [(c, i)] := by
  subst hg
  obtain ⟨hnot, hbefore⟩ := hguard c hget r (mem_of_reaches hr) hr
  have hmem : (c, i) ∈ s.view r c.groupId := mem_view.mpr ⟨hget, rfl, mem_of_reaches hr⟩
  refine (h.closed r c.groupId).filter_next (s.view_pairwise r c.groupId) hmem hnot hbefore ?_ ?_
  · rw [isEnqueued_completeSection hget hservice hmem, hr]
    simp
  · intro y hy hne
    rw [isEnqueued_completeSection hget hservice hy]
    simp [hne]

include hget hservice in
/-- For every other recipient or group the section changes nothing. -/
theorem isEnqueued_of_not_reaches
    (hmiss : ¬(reaches s.service.deliveryMode c (s.sections i) r = true ∧ c.groupId = g)) :
    ∀ x ∈ s.view r g, (s.completeSection i service).isEnqueued r x = s.isEnqueued r x := by
  intro x hx
  rw [isEnqueued_completeSection hget hservice hx]
  by_cases hi : x.2 = i
  · obtain ⟨hx', hg, _⟩ := mem_view.mp hx
    have hc : x.1 = c := Option.some.inj (hx'.symm.trans (hi ▸ hget))
    have hnot : reaches s.service.deliveryMode c (s.sections i) r = false := by
      rw [Bool.eq_false_iff]
      exact fun hr => hmiss ⟨hr, hc ▸ hg⟩
    simp [hnot]
  · simp [hi]

include h hget hservice hguard

theorem closed_completeSection :
    DownClosed Prod.snd (s.view r g) ((s.completeSection i service).isEnqueued r) := by
  by_cases hhit : reaches s.service.deliveryMode c (s.sections i) r = true ∧ c.groupId = g
  · obtain ⟨hr, rfl⟩ := hhit
    obtain ⟨_, hbefore⟩ := hguard c hget r (mem_of_reaches hr) hr
    refine (h.closed r c.groupId).next (x := (c, i)) hbefore ?_ ?_
    · intro y hy hsel
      rw [isEnqueued_completeSection hget hservice hy, hsel]
      rfl
    · intro y hy hne
      rw [isEnqueued_completeSection hget hservice hy]
      simp [hne]
  · have hsame := isEnqueued_of_not_reaches hget hservice r g hhit
    intro x hx y hy hxy hsel
    rw [hsame y hy] at hsel
    rw [hsame x hx]
    exact h.closed r g x hx y hy hxy hsel

theorem enqueued_completeSection :
    ((s.view r g).filter ((s.completeSection i service).isEnqueued r)).map
        (fun x => x.1.delivery r) = s.obtainedIn r g ++ s.service.queued r g ++
      (if reaches s.service.deliveryMode c (s.sections i) r = true ∧ c.groupId = g then
        [c.delivery r] else []) := by
  rw [← h.exact r g]
  split
  · rename_i hhit
    rw [filter_of_reaches h hget hservice hguard r g hhit.1 hhit.2, map_append]
    rfl
  · rename_i hmiss
    rw [filter_congr (isEnqueued_of_not_reaches hget hservice r g hmiss),
      append_nil]

theorem cursor_lt_completeSection (hmode : s.service.deliveryMode = .groupLog)
    (hg : c.groupId = g) (hr : r ∈ c.members) : s.service.commitCursor r g < c.epoch + 1 := by
  obtain ⟨state, _, hbound⟩ := h.bound c (mem_of_getElem? hget)
  have hreach : reaches s.service.deliveryMode c (s.sections i) r = true := by
    simp only [enqueueSection, hmode] at hservice
    by_cases hn : s.sections i = 0
    · simp [reaches, hmode, hn, hr]
    · simp [hn] at hservice
  rcases h.cursor hmode r g with hz | ⟨d, hd, he⟩
  · rw [hz]
    have hlt : c.epoch < c.epoch + 1 := by grind
    exact UInt64.lt_of_le_of_lt UInt64.zero_le hlt
  · have hpair := (h.addressed_pairwise r g).sublist
      ((((closed_completeSection h hget hservice hguard r g).filter_isPrefix
        (s.view_pairwise r g)).map fun x => x.1.delivery r).sublist.trans
          (s.addressed_eq r g ▸ Sublist.refl _))
    rw [enqueued_completeSection h hget hservice hguard r g, if_pos ⟨hreach, hg⟩] at hpair
    rw [← he]
    exact (pairwise_append.mp hpair).2.2 d (mem_append_left _ hd) _ mem_cons_self

/-- The log addressed to a recipient grows like what is queued for it. -/
theorem logged_completeSection (hmode : s.service.deliveryMode = .groupLog) :
    ((logOf service g).filter (·.recipients.contains r)).map (GroupLogCommit.delivery g r) =
      s.obtainedIn r g ++ service.queued r g := by
  have hn : s.sections i = 0 := by
    simp only [enqueueSection, hmode] at hservice
    by_contra hn
    simp [hn] at hservice
  rw [logOf_enqueueSection hmode hservice, queued_enqueueSection hservice
    (cursor_lt_completeSection h hget hservice hguard r g), filter_append, map_append,
    h.logged hmode r g, append_assoc]
  congr 2
  by_cases hg : c.groupId = g
  · subst hg
    by_cases hr : r ∈ c.members
    · simp [reaches, hmode, hn, hr, AcceptedCommit.logEntry, ← logEntry_delivery]
    · simp [reaches, hmode, hr, AcceptedCommit.logEntry]
  · simp [hg]

theorem completeSection : Ordered (s.completeSection i service) := by
  obtain ⟨hmode, hgroups, hcursors⟩ := enqueueSection_frame hservice
  have hqueued := fun r g => queued_enqueueSection hservice
    (cursor_lt_completeSection h hget hservice hguard r g)
  refine ⟨?_, h.increasing, ?_, closed_completeSection h hget hservice hguard, ?_, ?_, ?_, ?_⟩
  · intro j hj
    have hne : j ≠ i := by
      rintro rfl
      obtain ⟨hlt, _⟩ := List.getElem?_eq_some_iff.mp hget
      exact Nat.not_lt.mpr hj hlt
    exact (update_of_ne hne ..).trans (h.fresh j hj)
  · intro c' hc'
    obtain ⟨state, hst, hlt⟩ := h.bound c' hc'
    exact ⟨state, (congrFun hgroups _).trans hst, hlt⟩
  · intro r g
    refine (enqueued_completeSection h hget hservice hguard r g).trans ?_
    rw [append_assoc, ← hqueued r g]
    rfl
  · intro r d hd
    refine (congrArg head? (hqueued r d.groupId)).trans ?_
    rw [head?_append, h.front r d hd]
    rfl
  · intro hlog r g
    exact logged_completeSection h hget hservice hguard r g (hmode.symm.trans hlog)
  · intro hlog r g
    have hsame : service.commitCursor r g = s.service.commitCursor r g := by
      rw [commitCursor, hcursors]
      rfl
    exact hsame ▸ h.cursor (hmode.symm.trans hlog) r g

end Enqueue

theorem enqueue (h : Ordered s) (i : Nat) (hguard : s.InAcceptanceOrder (.enqueue i)) :
    Ordered (s.step (.enqueue i)) := by
  simp only [step]
  cases hsec : s.accepted[i]?.bind fun c => s.service.enqueueSection c (s.sections i) with
  | none => exact h
  | some service =>
    obtain ⟨c, hget, hservice⟩ := Option.bind_eq_some_iff.mp hsec
    exact completeSection h hget hservice hguard

theorem fetch (h : Ordered s) (order : List String) (r : String) :
    Ordered (s.step (.fetch order r)) := by
  refine ⟨h.fresh, h.increasing, h.bound, h.closed, h.exact, ?_, h.logged, h.cursor⟩
  intro r' d hd
  by_cases hr : r' = r
  · subst hr
    simp only [step, update_self] at hd
    exact head_queued_of_fetch hd
  · simp only [step, update_of_ne hr] at hd
    exact h.front r' d hd

section Ack

/-- Only the head of the queue of a delivery is gone. -/
abbrev DropsHead (s : Interleaved) (service : DeliveryService) (r : String)
    (d : PendingCommitDelivery) : Prop :=
  ∀ r' g, service.queued r' g =
    if r' = r ∧ g = d.groupId then (s.service.queued r' g).tail else s.service.queued r' g

variable (h : Ordered s) {order : List String} {r : String} {d : PendingCommitDelivery}
  (hd : d ∈ s.fetched r) (hguard : s.InAcceptanceOrder (.ack order r))

include h hd

/-- The fetched delivery heads its queue and everything behind it is later. -/
theorem queued_eq_cons : ∃ rest, s.service.queued r d.groupId = d :: rest ∧
    ∀ d' ∈ rest, d.epoch < d'.epoch := by
  obtain ⟨rest, hrest⟩ := head?_eq_some_iff.mp (h.front r d hd)
  have hpair := (pairwise_append.mp (h.total_pairwise r d.groupId)).2.1
  rw [hrest] at hpair
  exact ⟨rest, hrest, (pairwise_cons.mp hpair).1⟩

include hguard

/-- The identifier of the fetched delivery occurs in no other group. -/
theorem id_ne_of_group_ne {g : String} (hg : g ≠ d.groupId) {d' : PendingCommitDelivery}
    (hd' : d' ∈ s.obtainedIn r g ++ s.service.queued r g) : d'.id ≠ d.id := by
  obtain ⟨x, hx, _, rfl⟩ := h.exists_of_mem_total hd'
  obtain ⟨hget, rfl, hr⟩ := mem_view.mp hx
  exact hguard d hd x.1 (mem_of_getElem? hget) hr hg

theorem queued_ack_perRecipient (hmode : s.service.deliveryMode = .perRecipient) :
    DropsHead s (s.service.ackCommit order r d.id).2 r d := by
  intro r' g
  rw [queued_ack_inbox hmode]
  by_cases hr : r' = r
  · subst hr
    by_cases hg : g = d.groupId
    · subst hg
      obtain ⟨rest, hqueue, hlater⟩ := h.queued_eq_cons hd
      have hkeep : rest.filter (·.id != d.id) = rest := by
        rw [filter_eq_self]
        intro d' hd'
        have hlt := hlater d' hd'
        rw [bne_iff_ne]
        intro hid
        have he := h.epoch_of_id (hqueue ▸ mem_cons_of_mem _ hd')
          (hqueue ▸ mem_cons_self) hid
        grind
      simp [hqueue, hkeep]
    · have hkeep : (s.service.queued r' g).filter (·.id != d.id) = s.service.queued r' g := by
        rw [filter_eq_self]
        intro d' hd'
        rw [bne_iff_ne]
        exact h.id_ne_of_group_ne hd hguard hg (mem_append_right _ hd')
      simp [hg, hkeep]
  · simp [hr, Ne.symm hr]

theorem ack_groupLog (hmode : s.service.deliveryMode = .groupLog) (hwalk : s.Complete order) :
    (s.service.ackCommit order r d.id).2 = { s.service with
      commitCursors := update s.service.commitCursors (r, d.groupId)
        (some d.epoch) } := by
  obtain ⟨rest, hqueue, _⟩ := h.queued_eq_cons hd
  have hmem : d ∈ s.service.queued r d.groupId := hqueue ▸ mem_cons_self
  obtain ⟨x, hx, _, hxd⟩ := h.exists_of_mem_total (mem_append_right _ hmem)
  obtain ⟨hget, hgroup, _⟩ := mem_view.mp hx
  simp only [queued, hmode] at hmem
  obtain ⟨c, hc, hcd⟩ := mem_map.mp hmem
  obtain ⟨hlog, hpend⟩ := mem_filter.mp hc
  obtain ⟨hlt, hr⟩ := pendingInLog_iff.mp hpend
  have hid : c.deliveryId d.groupId r = d.id := congrArg PendingCommitDelivery.id hcd
  have hepoch : c.epoch = d.epoch := congrArg PendingCommitDelivery.epoch hcd
  have horder : d.groupId ∈ order := by
    rw [← hgroup]
    refine hwalk x.1 (mem_of_getElem? hget) ?_
    rw [hgroup]
    exact ne_nil_of_mem hlog
  have hother : ∀ g, g ≠ d.groupId → s.service.ackedInLog r d.id g = none := by
    intro g hg
    simp only [ackedInLog, find?_eq_none]
    intro c' hc' hmatch
    obtain ⟨hr', hid'⟩ := Bool.and_eq_true_iff.mp hmatch
    have hmem' : c'.delivery g r ∈ s.obtainedIn r g ++ s.service.queued r g := by
      rw [← h.logged hmode r g]
      refine mem_map_of_mem (mem_filter.mpr ⟨hc', ?_⟩)
      simpa using hr'
    exact h.id_ne_of_group_ne hd hguard hg hmem' (beq_iff_eq.mp hid')
  obtain ⟨found, hfound, hsame⟩ := ackedInLog_of_mem hlog hr
  rw [hid] at hfound
  have hmax : max (s.service.commitCursor r d.groupId) found.epoch = d.epoch := by
    rw [hsame, hepoch]
    grind [epoch_max]
  rw [ack_log hmode (findSome?_ackedInLog hother horder hfound), hmax]

theorem queued_ack_groupLog (hmode : s.service.deliveryMode = .groupLog)
    (hwalk : s.Complete order) : DropsHead s (s.service.ackCommit order r d.id).2 r d := by
  intro r' g
  obtain ⟨rest, hqueue, hlater⟩ := h.queued_eq_cons hd
  have hlt := cursor_lt_of_mem_queued hmode (hqueue ▸ mem_cons_self)
  rw [h.ack_groupLog hd hguard hmode hwalk, queued_raise hmode (UInt64.le_of_lt hlt)]
  split
  · rename_i hcase
    obtain ⟨rfl, rfl⟩ := hcase
    rw [hqueue, filter_cons_of_neg (by simp), tail_cons, filter_eq_self]
    exact fun d' hd' => decide_eq_true (hlater d' hd')
  · rfl

/-- In both modes an acknowledgement removes the fetched delivery and nothing else. -/
theorem queued_ack (hwalk : s.Complete order) :
    DropsHead s (s.service.ackCommit order r d.id).2 r d := by
  cases hmode : s.service.deliveryMode with
  | perRecipient => exact h.queued_ack_perRecipient hd hguard hmode
  | groupLog => exact h.queued_ack_groupLog hd hguard hmode hwalk

/-- Obtained and queued deliveries together are the same before and after. -/
theorem total_ack (hwalk : s.Complete order) (r' g : String) :
    (update s.obtained r (s.obtained r ++ [d]) r').filter (·.groupId == g) ++
        (s.service.ackCommit order r d.id).2.queued r' g =
      s.obtainedIn r' g ++ s.service.queued r' g := by
  rw [h.queued_ack hd hguard hwalk]
  by_cases hr : r' = r
  · subst hr
    by_cases hg : g = d.groupId
    · subst hg
      obtain ⟨rest, hqueue, _⟩ := h.queued_eq_cons hd
      simp [obtainedIn, hqueue, filter_append]
    · simp [obtainedIn, hg, Ne.symm hg, filter_append]
  · simp [obtainedIn, hr]

end Ack

theorem ack (h : Ordered s) (order : List String) (r : String)
    (hguard : s.InAcceptanceOrder (.ack order r)) (hwalk : s.Complete order) :
    Ordered (s.step (.ack order r)) := by
  simp only [step]
  cases hd : s.fetched r with
  | none => exact h
  | some d =>
    have htotal := h.total_ack hd hguard hwalk
    have hqueued := h.queued_ack hd hguard hwalk
    have hcursors := fun hmode => h.ack_groupLog hd hguard hmode hwalk
    obtain ⟨inboxes, cursors, hframe⟩ := ackCommit_frame
    simp only
    rw [hframe] at htotal hqueued hcursors ⊢
    refine ⟨h.fresh, h.increasing, h.bound, h.closed, ?_, ?_, ?_, ?_⟩
    · intro r' g
      exact (h.exact r' g).trans (htotal r' g).symm
    · intro r' d' hd'
      by_cases hr : r' = r
      · subst hr
        simp at hd'
      · simp only [update_of_ne hr] at hd'
        refine (congrArg head? (hqueued r' d'.groupId)).trans ?_
        rw [if_neg fun hcase => hr hcase.1]
        exact h.front r' d' hd'
    · intro hmode r' g
      exact (h.logged hmode r' g).trans (htotal r' g).symm
    · intro hmode r' g
      have hcursors := congrArg commitCursors (hcursors hmode)
      simp only at hcursors
      simp only [commitCursor, hcursors, obtainedIn]
      by_cases hcase : (r', g) = (r, d.groupId)
      · obtain ⟨rfl, rfl⟩ := Prod.mk.inj hcase
        exact .inr ⟨d, by simp, by simp⟩
      rw [update_of_ne hcase]
      rcases h.cursor hmode r' g with hz | ⟨d', hd', he⟩
      · exact .inl hz
      · refine Or.inr ⟨d', ?_, he⟩
        by_cases hr : r' = r
        · subst hr
          rw [update_self, filter_append]
          exact mem_append_left _ hd'
        · rw [update_of_ne hr]
          exact hd'

/-- One admitted step. -/
theorem step (h : Ordered s) (a : Action) (ha : s.InAcceptanceOrder a) (hwalk : s.Walks a) :
    Ordered (s.step a) := by
  cases a with
  | putGroupState groupId epoch members => exact h.put groupId epoch members
  | accept groupId sender epoch commitBytes => exact h.accept groupId sender epoch commitBytes ha
  | enqueue i => exact h.enqueue i ha
  | fetch order r => exact h.fetch order r
  | ack order r => exact h.ack order r ha hwalk

/-- A walk that meets every group with a log meets every group with something queued. -/
theorem mem_of_complete (h : Ordered s) {order : List String} (horder : s.Complete order)
    {r g : String} (hmode : s.service.deliveryMode = .groupLog) (hne : s.service.queued r g ≠ []) :
    g ∈ order := by
  obtain ⟨d, hd⟩ := exists_mem_of_ne_nil _ hne
  obtain ⟨x, hx, _, _⟩ := h.exists_of_mem_total (mem_append_right _ hd)
  obtain ⟨hget, rfl, _⟩ := mem_view.mp hx
  refine horder x.1 (mem_of_getElem? hget) ?_
  rintro hlog
  simp [queued, hmode, hlog] at hd

end Ordered

theorem ordered_execute {schedule : List Action}
    (hrun : Guarded step (fun s a => s.InAcceptanceOrder a ∧ s.Walks a) (start mode) schedule) :
    Ordered (execute step (start mode) schedule) :=
  hrun.invariant (fun _ a h ha => h.step a ha.1 ha.2) (ordered_start mode)

/-- Recipients obtain the commits of a group addressed to them in strictly increasing
epoch order and without a gap, and all of them once everything is enqueued and a fetch
returns nothing more. -/
theorem obtained_in_order (mode : CommitDeliveryMode) (schedule : List Action)
    (hrun : Guarded step (fun s a => s.InAcceptanceOrder a ∧ s.Walks a) (start mode) schedule)
    (r g : String) : let s := execute step (start mode) schedule
    s.obtainedIn r g <+: s.addressed r g ∧
    (s.obtainedIn r g).Pairwise (fun d d' => d.epoch < d'.epoch) ∧
    ∀ order, s.Complete order → (∀ x ∈ s.view r g, s.isEnqueued r x = true) →
      s.service.fetchPendingCommitDelivery order r = none →
        s.obtainedIn r g = s.addressed r g := by
  intro s
  have h : Ordered s := ordered_execute mode hrun
  have hinit : s.obtainedIn r g <+: s.addressed r g :=
    (prefix_append _ _).trans (h.total_isPrefix r g)
  refine ⟨hinit, (h.addressed_pairwise r g).sublist hinit.sublist, ?_⟩
  intro order horder hall hnone
  have hqueued : s.service.queued r g = [] :=
    queued_of_fetch_none hnone fun hmode hne => h.mem_of_complete horder hmode hne
  have hexact := h.exact r g
  rw [hqueued, append_nil, filter_eq_self.mpr hall] at hexact
  rw [addressed_eq, hexact]

/-- Two publishers whose sections alternate, each recipient being served in order. -/
def overlappingPublishers : List Action :=
  [.putGroupState "67" 0 ["alice", "bob"], .accept "67" "alice" 0 [1], .enqueue 0, .fetch [] "alice",
    .ack [] "alice", .accept "67" "alice" 1 [2], .enqueue 1, .enqueue 0, .fetch [] "bob",
    .ack [] "bob", .enqueue 1, .fetch [] "bob", .ack [] "bob"]

theorem obtained_in_order_overlappingPublishers :
    ((execute step (start .perRecipient) overlappingPublishers).obtainedIn "bob" "67").map
        (·.epoch) = [1, 2] ∧
    (execute step (start .perRecipient) overlappingPublishers).obtainedIn "bob" "67" <+:
      (execute step (start .perRecipient) overlappingPublishers).addressed "bob" "67" :=
  ⟨by decide, (obtained_in_order .perRecipient overlappingPublishers (by decide) "bob" "67").1⟩

/-- The second commit is enqueued for carol before the first one. -/
def overtakenInbox : List Action :=
  [.putGroupState "67" 0 ["alice", "bob", "carol"], .accept "67" "alice" 0 [1], .enqueue 0,
    .enqueue 0, .fetch [] "bob", .ack [] "bob", .accept "67" "bob" 1 [2], .enqueue 1, .enqueue 1,
    .enqueue 1, .fetch [] "carol", .ack [] "carol", .enqueue 0, .fetch [] "carol", .ack [] "carol"]

/-- The second commit is appended to the log and acknowledged before the first one. -/
def overtakenLog : List Action :=
  [.putGroupState "67" 0 ["alice", "carol"], .accept "67" "alice" 0 [1],
    .accept "67" "carol" 1 [2], .enqueue 1, .fetch ["67"] "alice", .ack ["67"] "alice", .enqueue 0,
    .fetch ["67"] "alice", .ack ["67"] "alice"]

/-- An inbox hands out the overtaken commit late, the log never does. -/
theorem overtaken_out_of_order :
    ((execute step (start .perRecipient) overtakenInbox).obtainedIn "carol" "67").map
        (·.epoch) = [2, 1] ∧
    ((execute step (start .perRecipient) overtakenInbox).addressed "carol" "67").map
        (·.epoch) = [1, 2] ∧
    ((execute step (start .groupLog) overtakenLog).obtainedIn "alice" "67").map (·.epoch) = [2] ∧
    ((execute step (start .groupLog) overtakenLog).addressed "alice" "67").map
        (·.epoch) = [1, 2] ∧
    (execute step (start .groupLog) overtakenLog).service.fetchPendingCommitDelivery ["67"]
        "alice" = none ∧
    ¬(execute step (start .perRecipient) overtakenInbox).obtainedIn "carol" "67" <+:
      (execute step (start .perRecipient) overtakenInbox).addressed "carol" "67" ∧
    ¬(execute step (start .groupLog) overtakenLog).obtainedIn "alice" "67" <+:
      (execute step (start .groupLog) overtakenLog).addressed "alice" "67" := by
  decide

section Epochs

variable {s : Interleaved} {g : String}

/-- The epochs of the accepted commits of a group, in order. -/
def acceptedEpochs (s : Interleaved) (g : String) : List Epoch :=
  (s.accepted.filter (·.groupId == g)).map (·.epoch)

/-- The epochs follow each other, and the group is in the next one. -/
def Consecutive (epochs : List Epoch) : Option GroupState → Prop
  | none => epochs = []
  | some state => (epochs ++ [state.currentEpoch]).IsChain fun epoch next => next = epoch + 1

theorem Consecutive.step (h : Consecutive (s.acceptedEpochs g) (s.service.groups g))
    (action : Action) :
    Consecutive ((s.step action).acceptedEpochs g) ((s.step action).service.groups g) := by
  cases action with
  | fetch order r => exact h
  | ack order r =>
    simp only [Interleaved.step]
    split
    · exact h
    · obtain ⟨inboxes, cursors, hframe⟩ := ackCommit_frame
      rw [hframe]
      exact h
  | enqueue i =>
    simp only [Interleaved.step]
    split
    · exact h
    · rename_i service hsection
      obtain ⟨commit, -, hsection⟩ := Option.bind_eq_some_iff.mp hsection
      rw [completeSection, (enqueueSection_frame hsection).2.1]
      exact h
  | putGroupState groupId epoch members =>
    have hset {state : GroupState}
        (hstate : g = groupId → Consecutive (s.acceptedEpochs g) (some state)) :
        Consecutive (s.acceptedEpochs g) (update s.service.groups groupId (some state) g) := by
      by_cases hg : g = groupId
      · rw [← hg, update_self]
        exact hstate hg
      · rwa [update_of_ne hg]
    simp only [Interleaved.step, putGroupState]
    split
    · rename_i state hgroup
      split
      · exact h
      · refine hset fun hg => ?_
        subst hg
        rw [hgroup] at h
        exact h
    · rename_i hgroup
      refine hset fun hg => ?_
      subst hg
      rw [hgroup] at h
      rw [show s.acceptedEpochs g = [] from h]
      exact .singleton epoch
  | accept groupId sender epoch commitBytes =>
    simp only [Interleaved.step]
    split
    · exact h
    · rename_i members service hacc
      obtain ⟨state, hstate, rfl, -, rfl⟩ := acceptCommit_eq_ok hacc
      by_cases hg : g = groupId
      · subst hg
        rw [hstate] at h
        simpa [acceptedEpochs, Consecutive] using h
      · simpa [acceptedEpochs, hg, Ne.symm hg] using h

/-- In every interleaving the commits of a group are accepted for consecutive epochs, up to the
one the group is in: there are no forks until epochs wrap. -/
theorem accepted_epochs_consecutive (mode : CommitDeliveryMode) (schedule : List Action)
    (g : String) : Consecutive ((execute step (start mode) schedule).acceptedEpochs g)
      ((execute step (start mode) schedule).service.groups g) := by
  induction schedule using reverseRecOn with
  | nil => exact rfl
  | append_singleton schedule action ih =>
    rw [execute_append]
    exact ih.step action

end Epochs

end Interleaved

end MessagingBench.Delivery
