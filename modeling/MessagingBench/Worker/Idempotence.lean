import Mathlib.Data.Finset.Card
import MessagingBench.Worker.Actor

/-!
# Idempotence of commands under a request id

As long as the completion of a command is among the last ones of its client and not too
old, so is everything completed after it. Hence no request id is completed twice in such
a window, and a command that comes back under its request id is answered with the
response that was given before.
-/

namespace MessagingBench.Worker

open List CompletedCommandCache

variable {σ : Type}

section Windows

variable {maxEntries ttl now : Nat} {before after : List Completion} {completion : Completion}

/-- The number of different request ids in a part of a history, one id left out. -/
def otherIds (requestId : String) (part : List Completion) : Nat :=
  (part.keys.toFinset.erase requestId).card

theorem length_eq_otherIds (h : (completion :: after).NodupKeys) :
    otherIds completion.1 after = after.length := by
  obtain ⟨hnot, hafter⟩ := nodupKeys_cons.mp h
  have hmem : completion.1 ∉ after.keys.toFinset := fun hmem => hnot (mem_toFinset.mp hmem)
  have hkeys : after.keys.Nodup := hafter
  rw [otherIds, Finset.erase_eq_of_notMem hmem, toFinset_card_of_nodup hkeys]
  exact length_map ..

theorem otherIds_mono {requestId : String} {part whole : List Completion}
    (h : part.Sublist whole) : otherIds requestId part ≤ otherIds requestId whole := by
  refine Finset.card_le_card (Finset.erase_subset_erase _ ?_)
  intro id hid
  exact mem_toFinset.mpr ((h.map Sigma.fst).subset (mem_toFinset.mp hid))

theorem sublist_recent
    (hsorted : (before ++ completion :: after).Pairwise fun earlier later =>
      earlier.2.completedAt ≤ later.2.completedAt)
    (httl : ttl ≠ 0) (hlength : after.length < maxEntries)
    (hage : now - completion.2.completedAt ≤ ttl) :
    (completion :: after).Sublist
      (recent maxEntries ttl now (before ++ completion :: after)) := by
  have hlater : ∀ entry ∈ completion :: after,
      completion.2.completedAt ≤ entry.2.completedAt := by
    intro entry hentry
    rcases mem_cons.mp hentry with rfl | hentry
    · exact le_rfl
    · exact (pairwise_cons.mp (pairwise_append.mp hsorted).2.1).1 entry hentry
  have hfresh : (completion :: after).filter (fun entry => !tooOld ttl now entry) =
      completion :: after := by
    refine filter_eq_self.mpr fun entry hentry => ?_
    have hle := hlater entry hentry
    simp only [tooOld, Bool.not_eq_eq_eq_not, Bool.not_true, decide_eq_false_iff_not]
    omega
  have hsuffix : (completion :: after).Sublist
      ((before ++ completion :: after).rtake maxEntries) := by
    unfold rtake
    rw [drop_append_of_le_length (by simp; omega)]
    exact sublist_append_right _ _
  have hfiltered := hsuffix.filter fun entry => !tooOld ttl now entry
  rw [hfresh] at hfiltered
  rw [recent, if_neg httl]
  exact hfiltered

end Windows

namespace ClientSlot

variable {slot : ClientSlot σ} {past before after : List Completion} {completion : Completion}

theorem step_maxEntries (arrival : Arrival σ) :
    (slot.step arrival).responseCache.maxEntries = slot.responseCache.maxEntries := by
  cases hcached : (slot.cached arrival).1 with
  | some response =>
    rw [step, clientCommandActor_replay hcached]
    exact cached_maxEntries
  | none =>
    rw [(clientCommandActor_execute hcached).2.2]
    split
    · rw [insert_maxEntries, cached_maxEntries]
    · exact cached_maxEntries

theorem step_ttl (arrival : Arrival σ) :
    (slot.step arrival).responseCache.ttl = slot.responseCache.ttl := by
  cases hcached : (slot.cached arrival).1 with
  | some response =>
    rw [step, clientCommandActor_replay hcached]
    exact cached_ttl
  | none =>
    rw [(clientCommandActor_execute hcached).2.2]
    split
    · rw [insert_ttl, cached_ttl]
    · exact cached_ttl

theorem clock_step (slot : ClientSlot σ) (arrival : Arrival σ) :
    slot.clock + arrival.waited ≤ (slot.step arrival).clock := by
  cases hcached : (slot.cached arrival).1 with
  | some response =>
    rw [step, clientCommandActor_replay hcached]
  | none =>
    rw [(clientCommandActor_execute hcached).2.1]
    omega

theorem clock_execute (slot : ClientSlot σ) (arrivals : List (Arrival σ)) :
    slot.clock ≤ (execute step slot arrivals).clock := by
  induction arrivals generalizing slot with
  | nil => exact le_rfl
  | cons arrival arrivals ih =>
    have hstep := slot.clock_step arrival
    have hrest := ih (slot.step arrival)
    rw [execute_cons]
    omega

/-- What an executed command adds to the history. -/
theorem completion_eq_some {arrival : Arrival σ} {added : Completion}
    (h : slot.completion arrival = some added) :
    arrival.requestId = some added.1 ∧ (slot.cached arrival).1 = none := by
  cases hcached : (slot.cached arrival).1 with
  | some response =>
    simp [ClientSlot.completion, clientCommandActor_replay hcached] at h
  | none =>
    simp only [ClientSlot.completion, (clientCommandActor_execute hcached).1, ite_true,
      Option.map_eq_some_iff] at h
    obtain ⟨requestId, hid, rfl⟩ := h
    exact ⟨hid, rfl⟩

/-- No id is completed again while an earlier completion of it is remembered. -/
theorem nodupKeys_step (htracks : slot.responseCache.Tracks slot.clock past)
    (hpast : past = before ++ completion :: after) (hnodup : (completion :: after).NodupKeys)
    (httl : slot.responseCache.ttl ≠ 0) (hlength : after.length < slot.responseCache.maxEntries)
    (arrival : Arrival σ)
    (hage : slot.clock + arrival.waited - completion.2.completedAt ≤ slot.responseCache.ttl) :
    (completion :: (after ++ (slot.completion arrival).toList)).NodupKeys := by
  cases hadded : slot.completion arrival with
  | none => simpa using hnodup
  | some added =>
    subst hpast
    obtain ⟨hid, hcached⟩ := completion_eq_some hadded
    have hnot := (cached_eq_none_iff htracks).mp hcached added.1 hid
    have hsublist := sublist_recent htracks.sorted httl hlength hage
    have hnew : added.1 ∉ (completion :: after).keys :=
      fun hmem => hnot ((hsublist.map Sigma.fst).subset hmem)
    rw [← cons_append, Option.toList_some, nodupKeys_middle, append_nil]
    exact nodupKeys_cons.mpr ⟨hnew, hnodup⟩

variable (arrivals : List (Arrival σ))

theorem execute_maxEntries :
    (execute step slot arrivals).responseCache.maxEntries = slot.responseCache.maxEntries := by
  induction arrivals generalizing slot with
  | nil => rfl
  | cons arrival arrivals ih => rw [execute_cons, ih, step_maxEntries]

theorem execute_ttl : (execute step slot arrivals).responseCache.ttl = slot.responseCache.ttl := by
  induction arrivals generalizing slot with
  | nil => rfl
  | cons arrival arrivals ih => rw [execute_cons, ih, step_ttl]

/-- Nothing is completed twice in a window that starts with a completion. -/
theorem nodupKeys_execute {now : Nat} {arrivals : List (Arrival σ)}
    (htracks : slot.responseCache.Tracks slot.clock (before ++ completion :: after))
    (hnodup : (completion :: after).NodupKeys) (httl : slot.responseCache.ttl ≠ 0)
    (hothers : otherIds completion.1 (after ++ slot.history arrivals) <
      slot.responseCache.maxEntries)
    (hnow : (execute step slot arrivals).clock ≤ now)
    (hage : now - completion.2.completedAt ≤ slot.responseCache.ttl) :
    (completion :: (after ++ slot.history arrivals)).NodupKeys := by
  induction arrivals generalizing slot after with
  | nil => simpa [history, outputs] using hnodup
  | cons arrival arrivals ih =>
    have hhistory : after ++ slot.history (arrival :: arrivals) =
        (after ++ (slot.completion arrival).toList) ++ (slot.step arrival).history arrivals := by
      rw [append_assoc]
      rfl
    have hclock := slot.clock_step arrival
    have hrest := (slot.step arrival).clock_execute arrivals
    rw [execute_cons] at hnow
    have hlength : after.length < slot.responseCache.maxEntries := by
      rw [← length_eq_otherIds hnodup]
      exact (otherIds_mono (sublist_append_left _ _)).trans_lt hothers
    have hnext := nodupKeys_step htracks rfl hnodup httl hlength arrival (by omega)
    have htracks' := tracks_step htracks arrival
    rw [append_assoc, cons_append] at htracks'
    rw [hhistory] at hothers ⊢
    refine ih htracks' hnext ?_ ?_ hnow ?_
    · rwa [step_ttl]
    · rwa [step_maxEntries]
    · rwa [step_ttl]

/-- A command with a request id is answered with the response of a completion: its own
one, or an earlier one that is still remembered. -/
theorem answered_by (htracks : slot.responseCache.Tracks slot.clock past) {arrival : Arrival σ}
    {requestId : String} (hid : arrival.requestId = some requestId) :
    ∃ (before : List Completion) (completion : Completion) (after : List Completion),
      past ++ (slot.completion arrival).toList = before ++ completion :: after ∧
      completion.1 = requestId ∧
      completion.2.response = (slot.clientCommandActor arrival).1.response ∧
      (completion :: after).NodupKeys ∧
      ((slot.clientCommandActor arrival).1.executed = true →
        after = [] ∧ completion.2.completedAt = (slot.step arrival).clock) := by
  cases hcached : (slot.cached arrival).1 with
  | none =>
    have hcompletion : slot.completion arrival = some ⟨requestId,
        (slot.clientCommandActor arrival).1.response, (slot.step arrival).clock⟩ := by
      simp [ClientSlot.completion, (clientCommandActor_execute hcached).1, hid, step]
    refine ⟨past, _, [], by rw [hcompletion]; rfl, rfl, rfl, nodupKeys_singleton _, ?_⟩
    exact fun _ => ⟨rfl, rfl⟩
  | some response =>
    have hhandled := clientCommandActor_replay hcached
    have hget : (slot.responseCache.get (slot.clock + arrival.waited) requestId).1 =
        some response := by
      rw [← hcached, cached, hid]
    have hle := Nat.le_add_right slot.clock arrival.waited
    rw [htracks.get_eq hle, Option.map_eq_some_iff] at hget
    obtain ⟨cachedResponse, hlookup, rfl⟩ := hget
    have hmem := of_mem_dlookup hlookup
    have httl : slot.responseCache.ttl ≠ 0 := by
      intro hzero
      rw [recent, if_pos hzero] at hmem
      cases hmem
    have hrecent := hmem
    rw [recent, if_neg httl, mem_window] at hrecent
    obtain ⟨hlast, hfresh⟩ := hrecent
    obtain ⟨skipped, after, hsplit⟩ := append_of_mem hlast
    obtain ⟨before, hpast⟩ : ∃ before, past = before ++ ⟨requestId, cachedResponse⟩ :: after := by
      refine ⟨past.take (past.length - slot.responseCache.maxEntries) ++ skipped, ?_⟩
      rw [append_assoc, ← hsplit]
      exact (take_append_drop _ _).symm
    have hlength : after.length < slot.responseCache.maxEntries := by
      have hcount := congrArg length hsplit
      rw [rtake, length_drop, length_append, length_cons] at hcount
      omega
    have hage : slot.clock + arrival.waited - cachedResponse.completedAt ≤
        slot.responseCache.ttl := by
      simpa [tooOld] using hfresh
    subst hpast
    have hsublist := sublist_recent htracks.sorted httl hlength hage
    have hnothing : slot.completion arrival = none := by simp [ClientSlot.completion, hhandled]
    refine ⟨before, ⟨requestId, cachedResponse⟩, after, ?_, rfl, ?_, ?_, ?_⟩
    · rw [hnothing, Option.toList_none, append_nil]
    · rw [hhandled]
    · exact (htracks.represents_prune hle).nodupKeys.sublist hsublist
    · simp [hhandled]

/-- A command is answered from a remembered completion without being executed. -/
theorem replayed_of_window
    (htracks : slot.responseCache.Tracks slot.clock (before ++ completion :: after))
    (httl : slot.responseCache.ttl ≠ 0) (hlength : after.length < slot.responseCache.maxEntries)
    {arrival : Arrival σ} (hid : arrival.requestId = some completion.1)
    (hage : slot.clock + arrival.waited - completion.2.completedAt ≤ slot.responseCache.ttl) :
    (slot.clientCommandActor arrival).1 = ⟨completion.2.response, false⟩ ∧
      (slot.step arrival).state = slot.state := by
  have hle := Nat.le_add_right slot.clock arrival.waited
  have hsublist := sublist_recent htracks.sorted httl hlength hage
  have hlookup := mem_dlookup (htracks.represents_prune hle).nodupKeys
    (hsublist.subset mem_cons_self)
  have hcached : (slot.cached arrival).1 = some completion.2.response := by
    rw [cached, hid]
    exact (htracks.get_eq hle completion.1).trans (congrArg (Option.map (·.response)) hlookup)
  rw [step, clientCommandActor_replay hcached]
  exact ⟨rfl, rfl⟩

/-- The same after further commands, as long as the window is not exceeded. -/
theorem replayed_after (htracks : slot.responseCache.Tracks slot.clock (before ++ completion :: after))
    (hnodup : (completion :: after).NodupKeys) (httl : slot.responseCache.ttl ≠ 0)
    {between : List (Arrival σ)} {second : Arrival σ} (hid : second.requestId = some completion.1)
    (hothers : otherIds completion.1 (after ++ slot.history between) <
      slot.responseCache.maxEntries)
    (hage : (execute step slot between).clock + second.waited - completion.2.completedAt ≤
      slot.responseCache.ttl) :
    ((execute step slot between).clientCommandActor second).1 = ⟨completion.2.response, false⟩ ∧
      ((execute step slot between).step second).state = (execute step slot between).state := by
  have hkeys := nodupKeys_execute htracks hnodup httl hothers (Nat.le_add_right _ second.waited) hage
  have hlength := length_eq_otherIds hkeys
  have htracks' := tracks_execute htracks between
  rw [append_assoc, cons_append] at htracks'
  refine replayed_of_window htracks' ?_ ?_ hid ?_
  · rwa [execute_ttl]
  · rwa [execute_maxEntries, ← hlength]
  · rwa [execute_ttl]

/-- The answer to a command that arrives after others. -/
def answer (start : ClientSlot σ) (earlier : List (Arrival σ)) (arrival : Arrival σ) : Handled :=
  ((execute step start earlier).clientCommandActor arrival).1

/-- A command is answered with the response of a completion; if it is executed, the
completion is its own. -/
structure AnsweredFrom (start : ClientSlot σ) (earlier : List (Arrival σ)) (arrival : Arrival σ)
    (completion : Completion) (after : List Completion) : Prop where
  history : ∃ before, start.history (earlier ++ [arrival]) = before ++ completion :: after
  response : completion.2.response = (answer start earlier arrival).response
  own : (answer start earlier arrival).executed = true → after = [] ∧
    completion.2.completedAt = (execute step start (earlier ++ [arrival])).clock

theorem history_append (start : ClientSlot σ) (earlier later : List (Arrival σ)) :
    start.history (earlier ++ later) =
      start.history earlier ++ (execute step start earlier).history later := by
  induction earlier generalizing start with
  | nil => rfl
  | cons arrival earlier ih =>
    have hcons (rest : List (Arrival σ)) : start.history (arrival :: rest) =
        (start.completion arrival).toList ++ (start.step arrival).history rest := rfl
    rw [cons_append, hcons, hcons, ih, append_assoc]
    rfl

end ClientSlot

/-- Every command with a request id is answered with the response of a completion of
that id. While fewer other ids than the capacity have been completed since then and at
most the time to live has passed, a command under the same id is not executed, leaves
the client as it is and gets the same response. -/
theorem replayed_within_window (state : σ) (maxEntries : Nat) {ttl : Nat} (clock : Nat)
    (earlier : List (Arrival σ)) (first : Arrival σ) {requestId : String} (httl : 0 < ttl)
    (hfirst : first.requestId = some requestId) :
    ∃ completion after, completion.1 = requestId ∧
      (ClientSlot.new state maxEntries ttl clock).AnsweredFrom earlier first completion after ∧
      ∀ (between : List (Arrival σ)) (second : Arrival σ), second.requestId = some requestId →
        otherIds requestId (after ++ (execute ClientSlot.step
          (.new state maxEntries ttl clock) (earlier ++ [first])).history between) < maxEntries →
        (execute ClientSlot.step (.new state maxEntries ttl clock)
          (earlier ++ first :: between)).clock + second.waited - completion.2.completedAt ≤ ttl →
        (ClientSlot.new state maxEntries ttl clock).answer (earlier ++ first :: between) second =
            ⟨((ClientSlot.new state maxEntries ttl clock).answer earlier first).response, false⟩ ∧
          ((execute ClientSlot.step (.new state maxEntries ttl clock)
            (earlier ++ first :: between)).step second).state =
              (execute ClientSlot.step (.new state maxEntries ttl clock)
                (earlier ++ first :: between)).state := by
  have hnew : (ClientSlot.new state maxEntries ttl clock).responseCache.Tracks
      (ClientSlot.new state maxEntries ttl clock).clock [] := tracks_new ..
  have hmaxEntries : (ClientSlot.new state maxEntries ttl clock).responseCache.maxEntries =
    maxEntries := rfl
  have httlEq : (ClientSlot.new state maxEntries ttl clock).responseCache.ttl = ttl := rfl
  generalize ClientSlot.new state maxEntries ttl clock = start at hnew hmaxEntries httlEq ⊢
  obtain ⟨before, completion, after, hhistory, hid, hresponse, hnodup, hown⟩ :=
    ClientSlot.answered_by (ClientSlot.tracks_execute hnew earlier) hfirst
  have hfirstStep : execute ClientSlot.step start (earlier ++ [first]) =
      (execute ClientSlot.step start earlier).step first := execute_append ..
  refine ⟨completion, after, hid, ⟨⟨before, ?_⟩, hresponse, ?_⟩, ?_⟩
  · rw [ClientSlot.history_append, ← hhistory, nil_append]
    exact congrArg (start.history earlier ++ ·) (append_nil _)
  · rw [hfirstStep]
    exact hown
  · intro between second hsecond hothers hage
    have htracks := ClientSlot.tracks_step (ClientSlot.tracks_execute hnew earlier) first
    rw [hhistory] at htracks
    have hrun : execute ClientSlot.step start (earlier ++ first :: between) =
        execute ClientSlot.step ((execute ClientSlot.step start earlier).step first) between :=
      execute_append ..
    have hmax : ((execute ClientSlot.step start earlier).step first).responseCache.maxEntries =
        maxEntries := by rw [ClientSlot.step_maxEntries, ClientSlot.execute_maxEntries, hmaxEntries]
    have htime : ((execute ClientSlot.step start earlier).step first).responseCache.ttl = ttl := by
      rw [ClientSlot.step_ttl, ClientSlot.execute_ttl, httlEq]
    rw [hfirstStep] at hothers
    rw [hrun] at hage
    rw [ClientSlot.answer, ClientSlot.answer, hrun, ← hresponse]
    subst hid
    exact ClientSlot.replayed_after htracks hnodup (by omega) hsecond (by rwa [hmax])
      (by rwa [htime])

/-- A self update that counts how often it is executed. -/
def countedUpdate (requestId : String) (waited : Nat) : Arrival Nat :=
  ⟨some requestId, ⟨.selfUpdate, none⟩, waited, 1, fun count => (.ok count.repr, count + 1)⟩

/-- A command that comes back after another one, within the window of the cache. -/
theorem replayed_within_window_countedUpdate :
    (ClientSlot.new 0 2 10 0).answer [countedUpdate "a" 0, countedUpdate "b" 3]
      (countedUpdate "a" 4) = ⟨.ok "0", false⟩ := by
  obtain ⟨completion, after, -, hfrom, hreplayed⟩ :=
    replayed_within_window 0 2 0 [] (countedUpdate "a" 0) (by decide : 0 < 10) rfl
  obtain ⟨rfl, htime⟩ := hfrom.own (by decide)
  refine (hreplayed [countedUpdate "b" 3] (countedUpdate "a" 4) rfl ?_ ?_).1
  · decide
  · rw [htime]
    decide

/-- A replay does not renew the window: the command that was replayed at 9 is executed again
at 12, as its only execution so far was completed at 1. -/
theorem executed_again_after_replay :
    (ClientSlot.new 0 2 10 0).answer [countedUpdate "a" 0] (countedUpdate "a" 8) =
        ⟨.ok "0", false⟩ ∧
      (execute ClientSlot.step (.new 0 2 10 0)
        [countedUpdate "a" 0, countedUpdate "a" 8]).clock = 9 ∧
      (ClientSlot.new 0 2 10 0).answer [countedUpdate "a" 0, countedUpdate "a" 8]
        (countedUpdate "a" 3) = ⟨.ok "1", true⟩ := by
  decide

end MessagingBench.Worker
