import SrxProbe.Dashboard.RunSafety

/-!
# Subscribing to a run

What `subscribe` hands a client: a backlog that continues from the client's last
id, or starts over behind a `reset`, and a queue that takes over where the
backlog ends. The queue is described by its history, so the client may read it
at any time.
-/

namespace SrxProbe.Dashboard

open SrxProbe.Lib

/-- Dropping the events up to id `last` from a list numbered from `first`. -/
theorem filter_id_eq_drop (events : List Event) (first last : Nat)
    (hids : events.map Event.id = List.range' first events.length) (hlast : first ≤ last + 1) :
    events.filter (fun e => last < e.id) = events.drop (last + 1 - first) := by
  induction events generalizing first with
  | nil => simp
  | cons e events ih =>
      rw [List.map_cons, List.length_cons, List.range'_succ, List.cons.injEq] at hids
      obtain ⟨hid, hids⟩ := hids
      by_cases heq : first = last + 1
      · -- from here on every id is above `last`
        have hall : ∀ e' ∈ e :: events, last < e'.id := by
          intro e' he'
          rcases List.mem_cons.mp he' with rfl | he'
          · omega
          · have hmem : e'.id ∈ List.range' (first + 1) events.length :=
              hids ▸ List.mem_map_of_mem he'
            rw [List.mem_range'_1] at hmem
            omega
        rw [heq, Nat.sub_self, List.drop_zero, List.filter_eq_self]
        exact fun e' he' => decide_eq_true (hall e' he')
      · have hskip : ¬ last < e.id := by omega
        have hstep : last + 1 - first = (last + 1 - (first + 1)) + 1 := by omega
        rw [List.filter_cons, if_neg (by simpa using hskip), hstep, List.drop_succ_cons]
        exact ih (first + 1) hids (by omega)

namespace Run

/-! ## The backlog -/

/-- With an event published there is an oldest retained one, and the retained
ids run from its id to `sequence`. -/
theorem LogInv.oldest {r : Run} (h : r.LogInv) (hpos : 0 < r.sequence) :
    ∃ oldest, r.events.items.head? = some oldest ∧
      r.events.items.map Event.id = List.range' oldest.id r.events.items.length ∧
      0 < oldest.id ∧ oldest.id + r.events.items.length = r.sequence + 1 := by
  have hlen := h.retained.length
  have hcap := maxLines_pos
  rw [← h.sequence] at hlen
  have hids := h.retained_ids
  cases hitems : r.events.items with
  | nil =>
      rw [hitems, List.length_nil] at hlen
      omega
  | cons oldest rest =>
      refine ⟨oldest, rfl, ?_⟩
      rw [hitems] at hids hlen
      have hfirst : oldest.id = r.sequence + 1 - (oldest :: rest).length := by
        rw [List.map_cons, List.length_cons, List.range'_succ, List.cons.injEq] at hids
        exact hids.1
      rw [← hfirst] at hids
      exact ⟨hids, by omega, by omega⟩

/-- Ids that the ring can serve: the backlog continues from `lastId`. -/
theorem replay_in_range {r : Run} {oldest : Event} {lastId : Nat}
    (hhead : r.events.items.head? = some oldest)
    (hids : r.events.items.map Event.id = List.range' oldest.id r.events.items.length)
    (hlen : oldest.id + r.events.items.length = r.sequence + 1)
    (hlo : oldest.id - 1 ≤ lastId) (hhi : lastId ≤ r.sequence) :
    r.replay lastId = r.events.items.filter (fun e => lastId < e.id) ∧
      (r.replay lastId).map Event.id = List.range' (lastId + 1) (r.sequence - lastId) := by
  have hreplay : r.replay lastId = r.events.items.filter (fun e => lastId < e.id) := by
    unfold replay
    split
    · rename_i hnil
      rw [hnil] at hhead
      cases hhead
    · rename_i oldest' rest hcons
      rw [hcons, List.head?_cons, Option.some.injEq] at hhead
      subst hhead
      rw [if_neg (by omega)]
  refine ⟨hreplay, ?_⟩
  rw [hreplay, filter_id_eq_drop _ _ _ hids (by omega), List.map_drop, hids, List.drop_range']
  congr 1
  · omega
  · omega

/-- Ids the ring cannot serve: the backlog starts over. -/
theorem replay_out_of_range {r : Run} {oldest : Event} {lastId : Nat}
    (hhead : r.events.items.head? = some oldest)
    (hout : ¬ (oldest.id - 1 ≤ lastId ∧ lastId ≤ r.sequence)) :
    r.replay lastId = resetEvent :: r.events.items := by
  unfold replay
  split
  · rename_i hnil
    rw [hnil] at hhead
    cases hhead
  · rename_i oldest' rest hcons
    rw [hcons, List.head?_cons, Option.some.injEq] at hhead
    subst hhead
    rw [if_pos (by omega)]

/-- An ended run replays its terminal event, unless the client has it already. -/
theorem Ended.mem_replay {r : Run} {e : Event} (h : r.Ended e) (hlog : r.LogInv)
    (lastId : Nat) : e ∈ r.replay lastId ↔ lastId ≠ r.sequence := by
  obtain ⟨hlast, hid⟩ := h.retained hlog
  have hmem : e ∈ r.events.items := List.mem_of_getLast? hlast
  have hpos : 0 < r.sequence := by
    obtain ⟨past, hpub, -⟩ := h.last
    rw [hlog.sequence, hpub, List.length_append, List.length_singleton]
    omega
  obtain ⟨oldest, hhead, hids, hold, hlen⟩ := hlog.oldest hpos
  by_cases hin : oldest.id - 1 ≤ lastId ∧ lastId ≤ r.sequence
  · rw [(replay_in_range hhead hids hlen hin.1 hin.2).1, List.mem_filter,
      decide_eq_true_eq]
    constructor
    · intro hlt heq
      omega
    · intro hne
      exact ⟨hmem, by omega⟩
  · rw [replay_out_of_range hhead hin]
    refine ⟨fun _ heq => hin ?_, fun _ => List.mem_cons_of_mem _ hmem⟩
    -- the last id itself is always in range
    have hlast' : r.events.items.length ≠ 0 := by
      intro hzero
      rw [List.length_eq_zero_iff.mp hzero] at hmem
      cases hmem
    omega

/-! ## The queue after the backlog -/

/-- Operations before the first `unsubscribe` of `q`. -/
def beforeUnsubscribe (q : QueueId) : List Op → List Op
  | [] => []
  | .unsubscribe q' :: ops => if q' = q then [] else .unsubscribe q' :: beforeUnsubscribe q ops
  | op :: ops => op :: beforeUnsubscribe q ops

/-- What the queue `q` has been sent, for a subscriber that came when `base`
events were published: every event since, as long as it is subscribed; else the
events up to an overflow, and the marker. An overflow takes at least a full
queue of events. -/
def Served (q : QueueId) (base : Nat) (r : Run) : Prop :=
  (q ∈ r.subscribers ∧ (r.queues q).history = (r.published.drop base).map some) ∨
  (q ∉ r.subscribers ∧ ∃ k, queueSize ≤ k ∧ k < (r.published.drop base).length ∧
    (r.queues q).history = ((r.published.drop base).take k).map some ++ [none])

/-- A queue that has left the subscriber set receives nothing. -/
theorem Effect.history_of_not_mem {r r' : Run} {q : QueueId} {op : Op} (h : Effect r op r')
    (hold : q < r.nextQueue) (hq : q ∉ r.subscribers) :
    q < r'.nextQueue ∧ q ∉ r'.subscribers ∧ (r'.queues q).history = (r.queues q).history := by
  have hne : q ≠ r.nextQueue := Nat.ne_of_lt hold
  have hfilter : q ∉ r.subscribers.filter (fun q => !(r.queues q).full) :=
    fun hmem => hq (List.mem_of_mem_filter hmem)
  cases h with
  | late _ => exact ⟨hold, hq, rfl⟩
  | emit line _ => exact ⟨hold, hfilter, by simp only [afterEmit, afterPublish, hq, if_false]⟩
  | finish rc now recorded _ =>
      exact ⟨hold, hfilter, by simp only [afterFinish, afterPublish, hq, if_false]⟩
  | refused _ => exact ⟨hold, hq, rfl⟩
  | subscribe _ _ =>
      refine ⟨Nat.lt_succ_of_lt hold, ?_, ?_⟩
      · simp only [afterSubscribe]
        split <;> simp [hq, hne]
      · simp only [afterSubscribe, update_of_ne _ _ hne]
  | unsubscribe q' => exact ⟨hold, fun hmem => hq (List.mem_of_mem_erase hmem), rfl⟩
  | empty _ => exact ⟨hold, hq, rfl⟩
  | get q' item queue _ hhist =>
      refine ⟨hold, hq, ?_⟩
      by_cases hqq : q = q'
      · subst hqq
        simp only [update_self, hhist]
      · simp only [update_of_ne _ _ hqq]

theorem execAll_history_of_not_mem {r r' : Run} {q : QueueId} {ops : List Op} (h : r.Inv)
    (hold : q < r.nextQueue) (hq : q ∉ r.subscribers) (hops : r.execAll ops = .ok r') :
    (r'.queues q).history = (r.queues q).history := by
  have hrun := execAll_iff_run.mp hops
  clear hops
  induction hrun with
  | nil => rfl
  | cons hstep _ ih =>
      obtain ⟨hold', hq', hhist⟩ := (exec_effect h.subs.nodup hstep).history_of_not_mem hold hq
      exact (ih (h.exec_ok hstep) hold' hq').trans hhist

/-- One more event keeps a queue `Served`: it is put at the end of a queue with
room, and turns a full one into the marker. -/
theorem Served.publish {q : QueueId} {base : Nat} {r r' : Run} {e : Event}
    (h : Served q base r) (hbase : base ≤ r.published.length)
    (hpub : r'.published = r.published ++ [e])
    (hsubs : r'.subscribers = r.subscribers.filter (fun q => !(r.queues q).full))
    (hqueue : r'.queues q =
      if q ∈ r.subscribers then (r.queues q).offered e else r.queues q) :
    Served q base r' := by
  have hnew : r'.published.drop base = r.published.drop base ++ [e] := by
    rw [hpub, List.drop_append_of_le_length hbase]
  rcases h with ⟨hmem, hhist⟩ | ⟨hmem, k, hsize, hk, hhist⟩
  · rw [if_pos hmem] at hqueue
    by_cases hfull : (r.queues q).items.length = queueSize
    · obtain ⟨-, hoffered⟩ := EventQueue.offered_of_full e hfull
      refine .inr ⟨?_, (r.published.drop base).length, ?_, ?_, ?_⟩
      · simp [hsubs, EventQueue.full, hfull]
      · -- what is unread was put since `base`
        have hlen := (r.queues q).suffix.length_le
        rw [hhist, List.length_map, hfull] at hlen
        exact hlen
      · rw [hnew, List.length_append, List.length_singleton]
        exact Nat.lt_succ_self _
      · rw [hqueue, hoffered, hhist, hnew, List.take_left']
        rfl
    · have hlt : (r.queues q).items.length < queueSize :=
        Nat.lt_of_le_of_ne (r.queues q).bounded hfull
      obtain ⟨-, hoffered⟩ := EventQueue.offered_of_lt e hlt
      refine .inl ⟨?_, ?_⟩
      · simp [hsubs, EventQueue.full, hfull, hmem]
      · rw [hqueue, hoffered, hhist, hnew, List.map_append, List.map_singleton]
  · rw [if_neg hmem] at hqueue
    refine .inr ⟨?_, k, hsize, ?_, ?_⟩
    · rw [hsubs]
      exact fun hq => hmem (List.mem_of_mem_filter hq)
    · rw [hnew, List.length_append]
      exact Nat.lt_succ_of_lt hk
    · rw [hqueue, hhist, hnew, List.take_append_of_le_length (Nat.le_of_lt hk)]

/-- Every operation but its own `unsubscribe` keeps a queue `Served`. -/
theorem Served.effect {q : QueueId} {base : Nat} {r r' : Run} {op : Op}
    (h : Served q base r) (hbase : base ≤ r.published.length) (hold : q < r.nextQueue)
    (heffect : Effect r op r') (hop : op ≠ .unsubscribe q) :
    Served q base r' ∧ base ≤ r'.published.length ∧ q < r'.nextQueue := by
  -- membership, history and log unchanged
  have hsame : (q ∈ r'.subscribers ↔ q ∈ r.subscribers) →
      (r'.queues q).history = (r.queues q).history → r'.published = r.published →
      Served q base r' := by
    intro hmem hhist hpub
    simp only [Served, hmem, hhist, hpub]
    exact h
  have hgrow : ∀ e : Event, base ≤ (r.published ++ [e]).length := fun e => by
    rw [List.length_append]
    exact Nat.le_add_right_of_le hbase
  cases heffect with
  | late _ => exact ⟨h, hbase, hold⟩
  | emit line _ => exact ⟨h.publish hbase rfl rfl rfl, hgrow _, hold⟩
  | finish rc now recorded _ => exact ⟨h.publish hbase rfl rfl rfl, hgrow _, hold⟩
  | refused _ => exact ⟨h, hbase, hold⟩
  | subscribe _ _ =>
      have hne : q ≠ r.nextQueue := Nat.ne_of_lt hold
      refine ⟨hsame ?_ ?_ rfl, hbase, Nat.lt_succ_of_lt hold⟩
      · simp only [afterSubscribe]
        split <;> simp [hne]
      · simp only [afterSubscribe, update_of_ne _ _ hne]
  | unsubscribe q' =>
      have hne : q ≠ q' := fun heq => hop (heq ▸ rfl)
      exact ⟨hsame (List.mem_erase_of_ne hne) rfl rfl, hbase, hold⟩
  | empty _ => exact ⟨h, hbase, hold⟩
  | get q' item queue _ hhist =>
      refine ⟨hsame Iff.rfl ?_ rfl, hbase, hold⟩
      by_cases hqq : q = q'
      · subst hqq
        simp only [update_self, hhist]
      · simp only [update_of_ne _ _ hqq]

theorem Served.execAll {q : QueueId} {base : Nat} {r r' : Run} {ops : List Op}
    (h : Served q base r) (hinv : r.Inv) (hbase : base ≤ r.published.length)
    (hold : q < r.nextQueue) (hops : r.execAll ops = .ok r') (hno : .unsubscribe q ∉ ops) :
    Served q base r' ∧ r'.Inv ∧ q < r'.nextQueue := by
  have hrun := execAll_iff_run.mp hops
  clear hops
  induction hrun with
  | nil => exact ⟨h, hinv, hold⟩
  | cons hstep _ ih =>
      rw [List.mem_cons, not_or] at hno
      obtain ⟨h', hbase', hold'⟩ :=
        h.effect hbase hold (exec_effect hinv.subs.nodup hstep) (Ne.symm hno.1)
      exact ih h' (hinv.exec_ok hstep) hbase' hold' hno.2

/-- The operations split at the first `unsubscribe` of `q`. -/
theorem beforeUnsubscribe_spec (q : QueueId) (ops : List Op) :
    .unsubscribe q ∉ beforeUnsubscribe q ops ∧
      (ops = beforeUnsubscribe q ops ∨
        ∃ rest, ops = beforeUnsubscribe q ops ++ .unsubscribe q :: rest) := by
  induction ops with
  | nil => exact ⟨by simp [beforeUnsubscribe], .inl rfl⟩
  | cons op ops ih =>
      obtain ⟨hno, hsplit⟩ := ih
      have hkeep : op ≠ .unsubscribe q → beforeUnsubscribe q (op :: ops) =
          op :: beforeUnsubscribe q ops → .unsubscribe q ∉ beforeUnsubscribe q (op :: ops) ∧
            (op :: ops = beforeUnsubscribe q (op :: ops) ∨
              ∃ rest, op :: ops = beforeUnsubscribe q (op :: ops) ++ .unsubscribe q :: rest) := by
        intro hne heq
        rw [heq]
        refine ⟨by simp [hno, Ne.symm hne], ?_⟩
        rcases hsplit with hsplit | ⟨rest, hsplit⟩
        · exact .inl (congrArg _ hsplit)
        · exact .inr ⟨rest, congrArg _ hsplit⟩
      cases op with
      | unsubscribe q' =>
          by_cases hq : q' = q
          · subst hq
            refine ⟨by simp [beforeUnsubscribe], .inr ⟨ops, by simp [beforeUnsubscribe]⟩⟩
          · exact hkeep (by simp [hq]) (by simp [beforeUnsubscribe, hq])
      | emit line => exact hkeep (by simp) rfl
      | finish rc now recorded => exact hkeep (by simp) rfl
      | subscribe lastId => exact hkeep (by simp) rfl
      | get q' => exact hkeep (by simp) rfl

/-- A new subscription to a run that has not ended is `Served` until its
`unsubscribe`, and receives nothing afterwards. -/
theorem subscription_served {r m : Run} {ops : List Op} (hinv : r.Inv)
    (hlt : r.subscribers.length < maxSubscribers) (hterm : r.terminal.isSome = false)
    (hops : r.afterSubscribe.execAll ops = .ok m) :
    ∃ r', r.afterSubscribe.execAll (beforeUnsubscribe r.nextQueue ops) = .ok r' ∧
      Served r.nextQueue r.published.length r' ∧
      (m.queues r.nextQueue).history = (r'.queues r.nextQueue).history := by
  have hinv' : r.afterSubscribe.Inv := hinv.effect (.subscribe 0 hlt)
  have hstart : Served r.nextQueue r.published.length r.afterSubscribe := by
    refine .inl ⟨?_, ?_⟩
    · simp [afterSubscribe, hterm]
    · simp [afterSubscribe]
  obtain ⟨hno, hsplit⟩ := beforeUnsubscribe_spec r.nextQueue ops
  obtain ⟨r', hr', hinv''⟩ := hinv'.execAll (beforeUnsubscribe r.nextQueue ops)
  obtain ⟨hserved, -, hold⟩ :=
    hstart.execAll hinv' (Nat.le_refl _) (Nat.lt_succ_self _) hr' hno
  refine ⟨r', hr', hserved, ?_⟩
  rcases hsplit with hsplit | ⟨rest, hsplit⟩
  · rw [hsplit, hr', Except.ok.injEq] at hops
    rw [hops]
  · -- past the `unsubscribe`
    have hrest : (r'.unsubscribe r.nextQueue).execAll rest = .ok m := by
      rw [hsplit] at hops
      simp only [Run.execAll, List.foldlM_append, List.foldlM_cons] at hops hr'
      rw [hr'] at hops
      exact hops
    have hgone : r.nextQueue ∉ (r'.unsubscribe r.nextQueue).subscribers :=
      hinv''.subs.nodup.not_mem_erase
    have hinvm : (r'.unsubscribe r.nextQueue).Inv := hinv''.effect (.unsubscribe _)
    have holdm : r.nextQueue < (r'.unsubscribe r.nextQueue).nextQueue := hold
    have hsame := execAll_history_of_not_mem hinvm holdm hgone hrest
    exact hsame

/-- What a subscription is handed: `Replayed` for the backlog of a client at
`lastId`. -/
structure Replayed (r : Run) (lastId : Nat) (sub : Subscription) : Prop where
  /-- ids the ring can serve: the retained events from `lastId + 1` on … -/
  continues : ∀ oldest, r.events.items.head? = some oldest →
    oldest.id - 1 ≤ lastId → lastId ≤ r.sequence →
      sub.backlog =
        (if r.terminal.isSome ∧ lastId = r.sequence then r.terminal.toList
         else r.events.items.filter (fun e => lastId < e.id)) ∧
      (r.events.items.filter (fun e => lastId < e.id)).map Event.id =
        List.range' (lastId + 1) (r.sequence - lastId)
  /-- … and otherwise one `reset` and everything retained -/
  restarts : ∀ oldest, r.events.items.head? = some oldest →
    ¬ (oldest.id - 1 ≤ lastId ∧ lastId ≤ r.sequence) →
      sub.backlog = resetEvent :: r.events.items
  /-- a finished run ends the backlog with its only `end` event -/
  terminal : ∀ e, r.terminal = some e →
    sub.backlog.filter Event.isEnd = [e] ∧ sub.backlog.getLast? = some e

/-- The backlog is the replay, with the terminal event added only for a client
that has it already. -/
theorem Inv.backlog_eq {r : Run} (h : r.Inv) (lastId : Nat) :
    r.backlog lastId =
      r.replay lastId ++ (if lastId = r.sequence then r.terminal.toList else []) := by
  unfold backlog
  cases hterm : r.terminal with
  | none => simp
  | some e =>
      have hmem := (h.latch.ended hterm).mem_replay h.log lastId
      by_cases hlast : lastId = r.sequence
      · simp only [if_neg (fun he => hmem.mp he hlast), if_pos hlast, Option.toList_some]
      · simp only [if_pos (hmem.mpr hlast), if_neg hlast, List.append_nil]

/-- The retained part of an ended run holds its only `end` event, at the end. -/
theorem Inv.retained_isEnd {r : Run} (h : r.Inv) {e : Event} (hterm : r.terminal = some e)
    {events : List Event} (hsuffix : events <:+ r.published) (hlast : events.getLast? = some e) :
    events.filter Event.isEnd = [e] := by
  obtain ⟨past, hpub, hpast⟩ := (h.latch.ended hterm).last
  obtain ⟨init, rfl⟩ : ∃ init, events = init ++ [e] := by
    rw [List.getLast?_eq_some_iff] at hlast
    exact hlast
  have hinit : ∀ x ∈ init, x.isEnd = false := by
    rw [hpub, List.suffix_concat_iff] at hsuffix
    rcases hsuffix with hnil | ⟨t, heq, ht⟩
    · simp at hnil
    · obtain ⟨rfl, -⟩ := List.append_inj' heq rfl
      exact fun x hx => hpast x (ht.subset hx)
  rw [List.filter_append, List.filter_eq_nil_iff.mpr (by simpa using hinit)]
  simp [(h.latch.ended hterm).isEnd]

theorem Inv.replayed {r r' : Run} {lastId : Nat} {sub : Subscription} (h : r.Inv)
    (hpos : 0 < r.sequence) (hsub : r.subscribe lastId = .ok (sub, r')) :
    Replayed r lastId sub := by
  obtain ⟨-, -, rfl⟩ := subscribe_ok hsub
  obtain ⟨oldest, hhead, hids, hold, hlen⟩ := h.log.oldest hpos
  have hpositive : r.events.items.length ≠ 0 := by
    intro hzero
    rw [List.length_eq_zero_iff.mp hzero] at hhead
    cases hhead
  -- the last id is in range, so a restarted backlog holds the terminal event
  have hout : ¬ (oldest.id - 1 ≤ lastId ∧ lastId ≤ r.sequence) → lastId ≠ r.sequence := by
    intro hno heq
    exact hno ⟨by omega, by omega⟩
  have hrestarts : ¬ (oldest.id - 1 ≤ lastId ∧ lastId ≤ r.sequence) →
      r.backlog lastId = resetEvent :: r.events.items := by
    intro hno
    rw [h.backlog_eq, if_neg (hout hno), replay_out_of_range hhead hno, List.append_nil]
  refine ⟨?_, ?_, ?_⟩
  · intro first hfirst hlo hhi
    rw [hhead, Option.some.injEq] at hfirst
    subst hfirst
    obtain ⟨hreplay, hrange⟩ := replay_in_range hhead hids hlen hlo hhi
    rw [hreplay] at hrange
    refine ⟨?_, hrange⟩
    rw [h.backlog_eq, hreplay]
    by_cases hlast : lastId = r.sequence
    · have hnil : r.events.items.filter (fun e => lastId < e.id) = [] := by
        rw [hlast, Nat.sub_self, List.range'_zero, List.map_eq_nil_iff] at hrange
        exact hlast ▸ hrange
      cases hterm : r.terminal with
      | none => simp [hlast]
      | some e => simp [hlast, hlast ▸ hnil]
    · simp [hlast]
  · intro first hfirst hno
    rw [hhead, Option.some.injEq] at hfirst
    subst hfirst
    exact hrestarts hno
  · intro e hterm
    obtain ⟨hlast, hid⟩ := (h.latch.ended hterm).retained h.log
    have hsuffix := h.log.retained.suffix
    by_cases hin : oldest.id - 1 ≤ lastId ∧ lastId ≤ r.sequence
    · obtain ⟨hreplay, hrange⟩ := replay_in_range hhead hids hlen hin.1 hin.2
      by_cases heq : lastId = r.sequence
      · have hnil : r.replay lastId = [] := by
          rw [← List.map_eq_nil_iff (f := Event.id), hrange, heq, Nat.sub_self, List.range'_zero]
        have hbacklog : r.backlog lastId = [e] := by
          rw [h.backlog_eq, hnil, if_pos heq, hterm]
          rfl
        rw [hbacklog]
        simp [(h.latch.ended hterm).isEnd]
      · have hbacklog : r.backlog lastId = r.events.items.drop (lastId + 1 - oldest.id) := by
          rw [h.backlog_eq, if_neg heq, List.append_nil, hreplay,
            filter_id_eq_drop _ _ _ hids (by omega)]
        have hbacklast : (r.backlog lastId).getLast? = some e := by
          rw [hbacklog, List.getLast?_drop, if_neg (by omega), hlast]
        refine ⟨h.retained_isEnd hterm ?_ hbacklast, hbacklast⟩
        rw [hbacklog]
        exact (List.drop_suffix _ _).trans hsuffix
    · rw [hrestarts hin]
      refine ⟨?_, ?_⟩
      · rw [List.filter_cons_of_neg (by decide)]
        exact h.retained_isEnd hterm hsuffix hlast
      · rw [List.getLast?_cons, hlast]
        rfl

/-- The queue of a subscription takes over where its backlog ends: whatever is
done to the run afterwards, up to the first `unsubscribe` the queue is `Served`
all events published since, and from then on it is left alone. -/
def TakesOver (r' : Run) (sub : Subscription) : Prop :=
  ∀ ops m, r'.execAll ops = .ok m →
    ∃ r'', r'.execAll (beforeUnsubscribe sub.queue ops) = .ok r'' ∧
      Served sub.queue r'.published.length r'' ∧
      (m.queues sub.queue).history = (r''.queues sub.queue).history

/-- **Replay.** In every reachable state with an event published, a `subscribe`
that is not refused replays exactly the suffix the client has not seen, or resets
it; the queue then receives every later event once and in order, and nothing at
all when the run has finished. -/
theorem subscribe_replays {r r' : Run} {lastId : Nat} {sub : Subscription}
    (hr : system.Reachable r) (hpos : 0 < r.sequence)
    (hsub : r.subscribe lastId = .ok (sub, r')) :
    Replayed r lastId sub ∧
      (r.terminal.isSome = false → sub.done = false ∧ TakesOver r' sub) ∧
      (r.terminal.isSome = true → sub.done = true ∧
        ∀ ops m, r'.execAll ops = .ok m → (m.queues sub.queue).history = []) := by
  have hinv := inv_invariant r hr
  refine ⟨hinv.replayed hpos hsub, ?_, ?_⟩
  · intro hterm
    obtain ⟨hlt, rfl, rfl⟩ := subscribe_ok hsub
    exact ⟨hterm, fun ops m hops => subscription_served hinv hlt hterm hops⟩
  · intro hterm
    obtain ⟨hlt, rfl, rfl⟩ := subscribe_ok hsub
    refine ⟨hterm, fun ops m hops => ?_⟩
    have hgone : r.nextQueue ∉ r.afterSubscribe.subscribers := by
      simp only [afterSubscribe, hterm, if_true]
      exact fun hmem => Nat.lt_irrefl _ (hinv.subs.created _ hmem)
    have hnew : (r.afterSubscribe.queues r.nextQueue).history = [] := by
      simp [afterSubscribe]
    rw [← hnew]
    exact execAll_history_of_not_mem (hinv.effect (.subscribe lastId hlt))
      (Nat.lt_succ_self _) hgone hops

/-- Three lines of output. A client that has seen the first is sent the others, and one that
comes with the id of an older server is reset. -/
theorem subscribe_replays_missed :
    let r := (((Run.new "5f1c".toList "srx".toList "http".toList 0).afterEmit
      "one".toList).afterEmit "two".toList).afterEmit "three".toList
    (r.backlog 1).map Event.id = [2, 3] ∧ Replayed r 1 ⟨0, r.backlog 1, false⟩ ∧
      TakesOver r.afterSubscribe ⟨0, r.backlog 1, false⟩ ∧
      r.backlog 7 = resetEvent :: r.events.items ∧ Replayed r 7 ⟨0, r.backlog 7, false⟩ := by
  intro r
  let r₀ := Run.new "5f1c".toList "srx".toList "http".toList 0
  let r₁ := r₀.afterEmit "one".toList
  let r₂ := r₁.afterEmit "two".toList
  have hone : system.step r₀ (.emit "one".toList) r₁ := emit_eq r₀ _ List.nodup_nil
  have htwo : system.step r₁ (.emit "two".toList) r₂ := emit_eq r₁ _ List.nodup_nil
  have hthree : system.step r₂ (.emit "three".toList) r := emit_eq r₂ _ List.nodup_nil
  have hr : system.Reachable r :=
    .step (.step (.step (.init ⟨_, _, _, _, rfl⟩) hone) htwo) hthree
  have hlt : r.subscribers.length < maxSubscribers := by decide +kernel
  have hmissed := subscribe_replays hr (by decide : 0 < r.sequence) (subscribe_of_lt 1 hlt)
  have hreset := subscribe_replays hr (by decide : 0 < r.sequence) (subscribe_of_lt 7 hlt)
  exact ⟨by decide +kernel, hmissed.1, (hmissed.2.1 rfl).2, by decide +kernel, hreset.1⟩

end Run

end SrxProbe.Dashboard
