import SrxProbe.Dashboard.Run

/-!
# What each run operation does

One lemma for each operation of `Run`, in closed form. The loop of `_publish`
is the only operation with a loop: `publish_eq` says what it does to every queue
at once, so no later proof looks at the order in which the subscribers are
visited. In Python that order is a set's and is not specified.
-/

namespace SrxProbe.Dashboard

open SrxProbe.Lib

/-- A queue after `_publish` has offered it `event`: the event at its end, or the
lone marker `None` if it was full. -/
def EventQueue.offered (queue : EventQueue) (event : Event) : EventQueue :=
  match queue.putNowait (some event) with
  | some queue' => queue'
  | none => (queue.drain.putNowait none).getD queue.drain

/-- A queue with no room for another event. -/
def EventQueue.full (queue : EventQueue) : Bool := queue.items.length == queueSize

namespace EventQueue

theorem offered_of_lt {queue : EventQueue} (event : Event)
    (h : queue.items.length < queueSize) :
    (offered queue event).items = queue.items ++ [some event] ∧
      (offered queue event).history = queue.history ++ [some event] := by
  obtain ⟨queue', hput, hitems, hhist⟩ := Fifo.putNowait_of_lt (some event) h
  rw [offered, hput]
  exact ⟨hitems, hhist⟩

/-- A drained queue has room for the marker. -/
theorem drain_putNowait (queue : EventQueue) :
    ∃ queue', queue.drain.putNowait none = some queue' ∧ queue'.items = [none] ∧
      queue'.history = queue.history ++ [none] := by
  have hroom : queue.drain.items.length < queueSize := by
    rw [Fifo.drain_items]
    exact queueSize_pos
  obtain ⟨queue', hput, hitems, hhist⟩ := Fifo.putNowait_of_lt none hroom
  rw [Fifo.drain_items] at hitems
  rw [Fifo.drain_history] at hhist
  exact ⟨queue', hput, hitems, hhist⟩

theorem offered_of_full {queue : EventQueue} (event : Event)
    (h : queue.items.length = queueSize) :
    (offered queue event).items = [none] ∧
      (offered queue event).history = queue.history ++ [none] := by
  obtain ⟨queue', hput, hitems, hhist⟩ := drain_putNowait queue
  rw [offered, Fifo.putNowait_none.mpr h, hput]
  exact ⟨hitems, hhist⟩

end EventQueue

namespace Run

/-- A run whose subscribers among `qs` have been offered `event`. -/
def offeredTo (r : Run) (event : Event) (qs : List QueueId) : Run :=
  { r with
    queues := fun q => if q ∈ qs then (r.queues q).offered event else r.queues q
    subscribers := r.subscribers.filter (fun q => !(decide (q ∈ qs) && (r.queues q).full)) }

/-- One turn of the loop never raises, and touches only its own queue. -/
theorem offer_eq (r : Run) (event : Event) (q : QueueId) (hnodup : r.subscribers.Nodup)
    (hmem : q ∈ r.subscribers) : r.offer event q = .ok (r.offeredTo event [q]) := by
  have hqueues : (fun j => if j ∈ [q] then (r.queues j).offered event else r.queues j) =
      update r.queues q ((r.queues q).offered event) := by
    funext j
    by_cases hj : j = q
    · subst hj
      simp
    · simp [update_of_ne, hj]
  by_cases hfull : (r.queues q).items.length = queueSize
  · -- full: the queue is drained, marked and forgotten
    obtain ⟨queue', hput, -, -⟩ := EventQueue.drain_putNowait (r.queues q)
    have hoffered : (r.queues q).offered event = queue' := by
      rw [EventQueue.offered, Fifo.putNowait_none.mpr hfull, hput]
      rfl
    have hsubs : r.subscribers.filter (fun j => !(decide (j ∈ [q]) && (r.queues j).full)) =
        r.subscribers.erase q := by
      rw [hnodup.erase_eq_filter]
      apply List.filter_congr
      intro j _
      by_cases hj : j = q
      · subst hj
        simp [EventQueue.full, hfull]
      · simp [hj]
    rw [offer, Fifo.putNowait_none.mpr hfull, offeredTo, hqueues, hsubs, hoffered]
    simp [evict, pyRemove, hmem, hput, bind, Except.bind]
  · have hlt : (r.queues q).items.length < queueSize :=
      Nat.lt_of_le_of_ne (r.queues q).bounded hfull
    obtain ⟨queue', hput, -, -⟩ := Fifo.putNowait_of_lt (some event) hlt
    have hoffered : (r.queues q).offered event = queue' := by
      rw [EventQueue.offered, hput]
    have hsubs : r.subscribers.filter (fun j => !(decide (j ∈ [q]) && (r.queues j).full)) =
        r.subscribers := by
      rw [List.filter_eq_self]
      intro j _
      by_cases hj : j = q
      · subst hj
        simp [EventQueue.full, hfull]
      · simp [hj]
    rw [offer, hput, offeredTo, hqueues, hsubs, hoffered]

/-- Two batches of offers to different queues compose. -/
theorem offeredTo_append (r : Run) (event : Event) (qs qs' : List QueueId)
    (hdisj : ∀ q ∈ qs', q ∉ qs) :
    (r.offeredTo event qs).offeredTo event qs' = r.offeredTo event (qs ++ qs') := by
  have hqueues : (fun q => if q ∈ qs' then
      EventQueue.offered (if q ∈ qs then (r.queues q).offered event else r.queues q) event
      else if q ∈ qs then (r.queues q).offered event else r.queues q) =
      fun q => if q ∈ qs ++ qs' then (r.queues q).offered event else r.queues q := by
    funext q
    by_cases hq' : q ∈ qs'
    · simp [hq', hdisj q hq']
    · simp [hq']
  unfold offeredTo
  simp only [Run.mk.injEq, true_and, and_true, hqueues, List.filter_filter]
  apply List.filter_congr
  intro q _
  by_cases hq' : q ∈ qs'
  · simp [hq', hdisj q hq']
  · simp [hq']

/-- The loop of `_publish` over any duplicate-free list of subscribers. -/
theorem offerAll_eq (event : Event) (qs : List QueueId) (r : Run)
    (hnodup : r.subscribers.Nodup) (hqs : qs.Nodup) (hmem : ∀ q ∈ qs, q ∈ r.subscribers) :
    qs.foldlM (fun r q => r.offer event q) r = .ok (r.offeredTo event qs) := by
  induction qs generalizing r with
  | nil =>
      simp [offeredTo, pure, Except.pure]
  | cons q qs ih =>
      rw [List.nodup_cons] at hqs
      obtain ⟨hq, hqs⟩ := hqs
      rw [List.foldlM_cons, offer_eq r event q hnodup (hmem q List.mem_cons_self)]
      have hmem' : ∀ j ∈ qs, j ∈ (r.offeredTo event [q]).subscribers := by
        intro j hj
        have hne : j ≠ q := fun h => hq (h ▸ hj)
        simp [offeredTo, hmem j (List.mem_cons_of_mem q hj), hne]
      have hdisj : ∀ j ∈ qs, j ∉ [q] := by
        intro j hj hjq
        rw [List.mem_singleton] at hjq
        exact hq (hjq ▸ hj)
      have hstep := ih (r.offeredTo event [q]) (hnodup.filter _) hqs hmem'
      rw [offeredTo_append r event [q] qs hdisj] at hstep
      exact hstep

/-- The order in which the subscriber set is visited does not matter. -/
theorem offerAll_perm (event : Event) {qs : List QueueId} (r : Run)
    (hnodup : r.subscribers.Nodup) (hperm : qs.Perm r.subscribers) :
    qs.foldlM (fun r q => r.offer event q) r =
      r.subscribers.foldlM (fun r q => r.offer event q) r := by
  rw [offerAll_eq event qs r hnodup (hperm.nodup_iff.mpr hnodup) (fun _ h => hperm.mem_iff.mp h),
    offerAll_eq event r.subscribers r hnodup hnodup (fun _ h => h)]
  simp only [offeredTo, hperm.mem_iff]

/-- The run after `_publish(kind, data)`. -/
def afterPublish (r : Run) (data : EventData) : Run :=
  { r with
    sequence := r.sequence + 1
    events := r.events.push ⟨r.sequence + 1, data⟩
    published := r.published ++ [⟨r.sequence + 1, data⟩]
    queues := fun q =>
      if q ∈ r.subscribers then (r.queues q).offered ⟨r.sequence + 1, data⟩ else r.queues q
    subscribers := r.subscribers.filter (fun q => !(r.queues q).full) }

@[simp] theorem record_subscribers (r : Run) (data : EventData) :
    (r.record data).2.subscribers = r.subscribers := by
  simp only [record]

theorem publish_eq (r : Run) (data : EventData) (hnodup : r.subscribers.Nodup) :
    r.publish data = .ok (⟨r.sequence + 1, data⟩, r.afterPublish data) := by
  have hloop := offerAll_eq ⟨r.sequence + 1, data⟩ r.subscribers (r.record data).2
    (by rwa [record_subscribers]) hnodup (by simp)
  have hsubs : r.subscribers.filter
      (fun q => !(decide (q ∈ r.subscribers) && (r.queues q).full)) =
      r.subscribers.filter (fun q => !(r.queues q).full) := by
    apply List.filter_congr
    intro q hq
    simp [hq]
  have hafter : (r.record data).2.offeredTo ⟨r.sequence + 1, data⟩ r.subscribers =
      r.afterPublish data := by
    rw [afterPublish, ← hsubs]
    rfl
  rw [hafter] at hloop
  unfold publish
  simp only [record] at hloop ⊢
  rw [hloop]
  rfl

/-! ## The four operations -/

/-- The run after an `emit` that is not dropped. -/
def afterEmit (r : Run) (line : PyStr) : Run :=
  { r with lines := r.lines.push (line.take maxLineChars) }.afterPublish
    (.log (line.take maxLineChars))

theorem emit_eq (r : Run) (line : PyStr) (hnodup : r.subscribers.Nodup) :
    r.emit line = .ok (if r.terminal.isSome then r else r.afterEmit line) := by
  unfold emit
  split
  · rfl
  · have hpublish := publish_eq { r with lines := r.lines.push (line.take maxLineChars) }
      (.log (line.take maxLineChars)) hnodup
    dsimp only
    rw [hpublish]
    rfl

/-- The run after the `finish` that ends it. -/
def afterFinish (r : Run) (rc : Int) (now : Time) (recorded : Except PyErr BatchRef) : Run :=
  let payload := r.endPayload rc now recorded
  { ({ r with returncode := some rc, ended := some now } : Run).afterPublish (.end payload) with
    terminal := some ⟨r.sequence + 1, .end payload⟩ }

theorem finish_eq (r : Run) (rc : Int) (now : Time) (recorded : Except PyErr BatchRef)
    (hnodup : r.subscribers.Nodup) :
    r.finish rc now recorded =
      .ok (if r.terminal.isSome then r else r.afterFinish rc now recorded) := by
  unfold finish
  split
  · rfl
  · have hpublish := publish_eq { r with returncode := some rc, ended := some now }
      (.end (r.endPayload rc now recorded)) hnodup
    dsimp only
    rw [hpublish]
    rfl

/-- The run after a `subscribe` that is not refused. -/
def afterSubscribe (r : Run) : Run :=
  { r with
    queues := update r.queues r.nextQueue .empty
    nextQueue := r.nextQueue + 1
    subscribers :=
      if r.terminal.isSome then r.subscribers else r.subscribers ++ [r.nextQueue] }

theorem subscribe_ok {r r' : Run} {lastId : Nat} {sub : Subscription}
    (h : r.subscribe lastId = .ok (sub, r')) :
    r.subscribers.length < maxSubscribers ∧ r' = r.afterSubscribe ∧
      sub = ⟨r.nextQueue, r.backlog lastId, r.terminal.isSome⟩ := by
  unfold subscribe at h
  split at h
  · cases h
  · rename_i hlt
    cases h
    exact ⟨Nat.lt_of_not_le hlt, rfl, rfl⟩

theorem subscribe_of_lt {r : Run} (lastId : Nat)
    (h : r.subscribers.length < maxSubscribers) :
    r.subscribe lastId =
      .ok (⟨r.nextQueue, r.backlog lastId, r.terminal.isSome⟩, r.afterSubscribe) := by
  unfold subscribe
  rw [if_neg (Nat.not_le_of_lt h)]
  rfl

theorem get_some {r r' : Run} {q : QueueId} {item : Option Event}
    (h : r.get q = some (item, r')) :
    ∃ queue, (r.queues q).items = item :: queue.items ∧
      queue.history = (r.queues q).history ∧
      r' = { r with queues := update r.queues q queue } := by
  unfold get at h
  split at h
  · rename_i item' queue hget
    cases h
    obtain ⟨hitems, hhist⟩ := Fifo.getNowait_some hget
    exact ⟨queue, hitems, hhist, rfl⟩
  · cases h

end Run

end SrxProbe.Dashboard
