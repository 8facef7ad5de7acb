import Mathlib.Data.List.Chain
import SrxProbe.Dashboard.StreamInv

/-!
# No silent gap

What one client is sent over all its connections. The argument follows the
client's position in the log: what is written and in hand ends there, and its
queue continues there. The one way to lose the position is to take an item out
of a queue whose eviction has already thrown older items away.
-/

namespace SrxProbe.Dashboard

open SrxProbe.Lib

/-- Where a client that has seen nothing stands. -/
def origin : Event := ⟨0, .log []⟩

/-- Two events in a row leave no silent gap: their ids are consecutive, or a
`reset` says otherwise, or the terminal event is sent again. -/
def Follows (e e' : Event) : Prop :=
  e.isReset = true ∨ e'.isReset = true ∨ e'.id = e.id + 1 ∨ (e.isEnd = true ∧ e' = e)

/-- The events sent to a client leave no silent gap, from the first one on. -/
def Gapless (events : List Event) : Prop := List.IsChain Follows (origin :: events)

/-! ## Positions -/

theorem lastId_eq (events : List Event) : lastId events = (events.getLast?.getD origin).id := by
  unfold lastId
  split
  · rename_i e he
    rw [he]
    rfl
  · rename_i he
    rw [he]
    rfl

@[simp] theorem lastId_concat (events : List Event) (e : Event) :
    lastId (events ++ [e]) = e.id := by
  rw [lastId_eq, List.getLast?_concat]
  rfl

/-- A numbered piece of the log ends at its last number. -/
theorem lastId_numbered (events piece : List Event) (first n : Nat)
    (hids : piece.map Event.id = List.range' first (n + 1)) :
    lastId (events ++ piece) = first + n := by
  have hlast : (piece.map Event.id).getLast? = some (first + n) := by
    rw [hids, List.getLast?_range', if_neg (Nat.succ_ne_zero n)]
    rfl
  rw [List.getLast?_map, Option.map_eq_some_iff] at hlast
  obtain ⟨e, he, hid⟩ := hlast
  rw [lastId_eq, List.getLast?_append, he]
  exact hid

theorem isChain_numbered (piece : List Event) (first : Nat)
    (hids : piece.map Event.id = List.range' first piece.length) :
    List.IsChain Follows piece := by
  induction piece generalizing first with
  | nil => exact .nil
  | cons e piece ih =>
      rw [List.map_cons, List.length_cons, List.range'_succ, List.cons.injEq] at hids
      obtain ⟨hid, hids⟩ := hids
      cases piece with
      | nil => exact .singleton _
      | cons e' piece =>
          rw [List.isChain_cons_cons]
          refine ⟨.inr (.inr (.inl ?_)), ih (first + 1) hids⟩
          rw [List.map_cons, List.length_cons, List.range'_succ, List.cons.injEq] at hids
          rw [hids.1, hid]

/-- Appending to what a client has been sent. -/
theorem Gapless.append {events piece : List Event} (h : Gapless events)
    (hpiece : List.IsChain Follows piece)
    (hnext : ∀ e, piece.head? = some e → Follows (events.getLast?.getD origin) e) :
    Gapless (events ++ piece) := by
  show List.IsChain Follows ((origin :: events) ++ piece)
  rw [List.isChain_append]
  refine ⟨h, hpiece, ?_⟩
  intro e he e' he'
  rw [List.getLast?_cons, Option.mem_def, Option.some.injEq] at he
  exact he ▸ hnext e' he'

theorem Gapless.of_append {events piece : List Event} (h : Gapless (events ++ piece)) :
    Gapless events :=
  List.IsChain.left_of_append
    (show List.IsChain Follows ((origin :: events) ++ piece) from h)

namespace Run

/-- What a client has been sent, or is about to be: no gap, and nothing made up. -/
structure Sent (r : Run) (events : List Event) : Prop where
  gapless : Gapless events
  genuine : ∀ e ∈ events, e = resetEvent ∨ e ∈ r.published

theorem Sent.mono {r r' : Run} {events : List Event} (h : r.Sent events)
    (hpub : ∀ e ∈ r.published, e ∈ r'.published) : r'.Sent events where
  gapless := h.gapless
  genuine := fun e he => (h.genuine e he).imp_right (hpub e)

theorem Sent.of_append {r : Run} {events piece : List Event} (h : r.Sent (events ++ piece)) :
    r.Sent events where
  gapless := h.gapless.of_append
  genuine := fun e he => h.genuine e (List.mem_append_left piece he)

/-- A client stands nowhere, at a `reset`, or at an event of the log. -/
theorem Sent.last {r : Run} {events : List Event} (h : r.Sent events) :
    events.getLast?.getD origin = origin ∨ (events.getLast?.getD origin).isReset = true ∨
      events.getLast?.getD origin ∈ r.published := by
  cases hlast : events.getLast? with
  | none => exact .inl rfl
  | some e =>
      rcases h.genuine e (List.mem_of_getLast? hlast) with hreset | hmem
      · exact .inr (.inl (hreset ▸ rfl))
      · exact .inr (.inr hmem)

theorem Sent.lastId_le {r : Run} {events : List Event} (h : r.Sent events) (hlog : r.LogInv) :
    lastId events ≤ r.sequence := by
  rw [lastId_eq]
  cases hlast : events.getLast? with
  | none => exact Nat.zero_le _
  | some e =>
      rcases h.genuine e (List.mem_of_getLast? hlast) with hreset | hmem
      · exact hreset ▸ Nat.zero_le _
      · exact hlog.id_le hmem

/-- The event of the log at the client's position may be sent next. -/
theorem Sent.snoc {r : Run} {events : List Event} {e : Event} (h : r.Sent events)
    (hlog : r.LogInv) (he : r.published[lastId events]? = some e) :
    r.Sent (events ++ [e]) ∧ lastId (events ++ [e]) = lastId events + 1 := by
  have hid := hlog.id_getElem? he
  refine ⟨⟨h.gapless.append (.singleton e) ?_, ?_⟩, by rw [lastId_concat, hid]⟩
  · intro e' he'
    cases he'
    exact .inr (.inr (.inl (by rw [hid, lastId_eq])))
  · intro e' he'
    rcases List.mem_append.mp he' with hmem | hmem
    · exact h.genuine e' hmem
    · rw [List.mem_singleton] at hmem
      exact .inr (hmem ▸ List.mem_of_getElem? he)

/-- Events of the log with the same id are the same event. -/
theorem LogInv.id_inj {r : Run} (h : r.LogInv) {e e' : Event} (he : e ∈ r.published)
    (he' : e' ∈ r.published) (hid : e.id = e'.id) : e = e' := by
  obtain ⟨i, hi⟩ := List.mem_iff_getElem?.mp he
  obtain ⟨j, hj⟩ := List.mem_iff_getElem?.mp he'
  have heq : i = j := by
    have hidi := h.id_getElem? hi
    have hidj := h.id_getElem? hj
    omega
  rw [heq, hj, Option.some.injEq] at hi
  exact hi.symm

/-! ## Reconnecting -/

/-- The retained part of the log, as `subscribe` replays it to a client whose last
id is `lastId events`: no gap, up to the end of the log. -/
theorem Sent.replay {r : Run} {events : List Event} (h : r.Sent events) (hlog : r.LogInv) :
    Gapless (events ++ r.replay (lastId events)) ∧
      lastId (events ++ r.replay (lastId events)) = r.sequence := by
  have hle := h.lastId_le hlog
  by_cases hzero : r.sequence = 0
  · have hnil : r.events.items = [] := by
      rw [← List.length_eq_zero_iff, hlog.retained.length, ← hlog.sequence, hzero, Nat.zero_min]
    have hreplay : r.replay (lastId events) = [] := by
      unfold Run.replay
      rw [hnil]
    rw [hreplay, List.append_nil]
    exact ⟨h.gapless, by omega⟩
  · obtain ⟨oldest, hhead, hids, hold, hlen⟩ := hlog.oldest (Nat.pos_of_ne_zero hzero)
    by_cases hin : oldest.id - 1 ≤ lastId events ∧ lastId events ≤ r.sequence
    · -- the retained events continue at the client's position
      have hreplay := (replay_in_range hhead hids hlen hin.1 hin.2).2
      have hlength : (r.replay (lastId events)).length = r.sequence - lastId events := by
        have hcount := congrArg List.length hreplay
        rwa [List.length_map, List.length_range'] at hcount
      refine ⟨h.gapless.append (isChain_numbered _ _ (hlength ▸ hreplay)) ?_, ?_⟩
      · intro e he
        have hfirst : ((r.replay (lastId events)).map Event.id).head? = some e.id := by
          rw [List.head?_map, he]
          rfl
        rw [hreplay, List.head?_range'] at hfirst
        split at hfirst
        · cases hfirst
        · rw [Option.some.injEq] at hfirst
          exact .inr (.inr (.inl (by rw [← hfirst, lastId_eq])))
      · by_cases hsame : lastId events = r.sequence
        · rw [hsame, Nat.sub_self, List.length_eq_zero_iff] at hlength
          rw [hsame, hlength, List.append_nil, hsame]
        · obtain ⟨n, hn⟩ : ∃ n, r.sequence - lastId events = n + 1 :=
            ⟨r.sequence - lastId events - 1, by omega⟩
          rw [hn] at hreplay
          rw [lastId_numbered _ _ _ _ hreplay]
          omega
    · -- the ring starts later: everything retained, after a reset
      rw [replay_out_of_range hhead hin]
      obtain ⟨n, hn⟩ : ∃ n, r.events.items.length = n + 1 := by
        cases hitems : r.events.items with
        | nil =>
            rw [hitems] at hhead
            cases hhead
        | cons e rest => exact ⟨rest.length, rfl⟩
      refine ⟨h.gapless.append ?_ ?_, ?_⟩
      · exact (isChain_numbered _ _ hids).cons (fun e _ => .inl rfl)
      · intro e he
        cases he
        exact .inr (.inl rfl)
      · rw [hn] at hids hlen
        have hlast := lastId_numbered (events ++ [resetEvent]) _ _ _ hids
        rw [List.append_assoc] at hlast
        rw [show events ++ resetEvent :: r.events.items = events ++ ([resetEvent] ++ r.events.items)
          from rfl, hlast]
        omega

theorem mem_replay {r : Run} {lastId : Nat} {e : Event} (h : e ∈ r.replay lastId) :
    e = resetEvent ∨ e ∈ r.events.items := by
  unfold Run.replay at h
  split at h
  · cases h
  · split at h
    · exact List.mem_cons.mp h
    · exact .inr (List.mem_of_mem_filter h)

/-- The terminal event may be sent to a client at the end of the log. -/
theorem Sent.terminal {r : Run} {events : List Event} {e : Event} (h : r.Sent events)
    (hlog : r.LogInv) (hended : r.Ended e) (hlast : lastId events = r.sequence) :
    r.Sent (events ++ [e]) := by
  have hid := (hended.retained hlog).2
  obtain ⟨past, hpub, -⟩ := hended.last
  have hmem : e ∈ r.published := hpub ▸ List.mem_append_right past List.mem_cons_self
  refine ⟨h.gapless.append (.singleton e) ?_, ?_⟩
  · intro e' he'
    cases he'
    rw [lastId_eq] at hlast
    rcases h.last with horigin | hreset | hpublished
    · -- with nothing published there is no terminal event
      have hpos : r.sequence = past.length + 1 := by
        rw [hlog.sequence, hpub, List.length_append, List.length_singleton]
      rw [horigin, hpos] at hlast
      exact absurd hlast (Nat.succ_ne_zero _).symm
    · exact .inl hreset
    · have hsame := hlog.id_inj hpublished hmem (hlast.trans hid.symm)
      rw [hsame]
      exact .inr (.inr (.inr ⟨hended.isEnd, rfl⟩))
  · intro e' he'
    rcases List.mem_append.mp he' with hold | hnew
    · exact h.genuine e' hold
    · rw [List.mem_singleton] at hnew
      exact .inr (hnew ▸ hmem)

/-- A client that reconnects is sent a backlog that leaves no gap, and that ends at
the end of the log. -/
theorem Sent.backlog {r : Run} {events : List Event} (h : r.Sent events) (hinv : r.Inv) :
    r.Sent (events ++ r.backlog (lastId events)) ∧
      (r.terminal.isSome = false → lastId (events ++ r.backlog (lastId events)) = r.sequence) := by
  obtain ⟨hgapless, hlast⟩ := h.replay hinv.log
  have hsent : r.Sent (events ++ r.replay (lastId events)) := by
    refine ⟨hgapless, ?_⟩
    intro e he
    rcases List.mem_append.mp he with hmem | hmem
    · exact h.genuine e hmem
    · exact (mem_replay hmem).imp_right (fun hitem => hinv.log.retained.suffix.subset hitem)
  unfold Run.backlog
  split
  · rename_i e hterm
    have hsome : r.terminal.isSome = true := by
      rw [hterm]
      rfl
    refine ⟨?_, fun hnone => absurd (hnone.symm.trans hsome) Bool.false_ne_true⟩
    split
    · exact hsent
    · rw [← List.append_assoc]
      exact hsent.terminal hinv.log (hinv.latch.ended hterm) hlast
  · exact ⟨hsent, fun _ => hlast⟩

end Run

/-! ## The queue of a connection -/

/-- A queue that holds exactly what follows position `n` of a log. -/
def HoldsFrom (queue : EventQueue) (log : List Event) (n : Nat) : Prop :=
  n ≤ log.length ∧ queue.items = (log.drop n).map some

theorem HoldsFrom.take {queue queue' : EventQueue} {log : List Event} {n : Nat} {e : Event}
    (h : HoldsFrom queue log n) (hitems : queue.items = some e :: queue'.items) :
    log[n]? = some e ∧ HoldsFrom queue' log (n + 1) := by
  obtain ⟨hn, heq⟩ := h
  rw [hitems] at heq
  cases hdrop : log.drop n with
  | nil =>
      rw [hdrop] at heq
      cases heq
  | cons e' rest =>
      rw [hdrop, List.map_cons, List.cons.injEq, Option.some.injEq] at heq
      obtain ⟨rfl, hrest⟩ := heq
      have hget : log[n]? = some e := by
        rw [← Nat.add_zero n, ← List.getElem?_drop, hdrop]
        rfl
      refine ⟨hget, (List.getElem?_eq_some_iff.mp hget).1, ?_⟩
      rw [hrest, ← List.tail_drop, hdrop]
      rfl

/-- What a handler at position `n` of the log finds in its queue `q`. -/
inductive Ready (r : Run) (pub : PubPc) (q : QueueId) (n : Nat) : Prop
  /-- everything but the event under way -/
  | behind : q ∈ pub.behind → HoldsFrom (r.queues q) r.published.dropLast n → Ready r pub q n
  | current : q ∉ pub.behind → q ∈ r.subscribers → HoldsFrom (r.queues q) r.published n →
      Ready r pub q n
  /-- an eviction has thrown items away: no telling what is left -/
  | broken : pub.broken? = some q → Ready r pub q n
  /-- evicted: nothing but the marker -/
  | evicted : q ∉ pub.behind → q ∉ r.subscribers →
      (∀ item ∈ (r.queues q).items, item = none) → Ready r pub q n

namespace Ready

/-- A step that is not about `q`. -/
theorem frame {r r' : Run} {pub pub' : PubPc} {q : QueueId} {n : Nat} (h : Ready r pub q n)
    (hqueue : r'.queues q = r.queues q) (hpub : r'.published = r.published)
    (hsubs : q ∈ r'.subscribers ↔ q ∈ r.subscribers) (hbehind : q ∈ pub'.behind ↔ q ∈ pub.behind)
    (hbroken : pub.broken? = some q → pub'.broken? = some q) : Ready r' pub' q n := by
  cases h with
  | behind hmem hholds =>
      exact .behind (hbehind.mpr hmem) (by rw [hqueue, hpub]; exact hholds)
  | current hnot hmem hholds =>
      exact .current (fun hq => hnot (hbehind.mp hq)) (hsubs.mpr hmem)
        (by rw [hqueue, hpub]; exact hholds)
  | broken hq => exact .broken (hbroken hq)
  | evicted hnot hmem hitems =>
      exact .evicted (fun hq => hnot (hbehind.mp hq)) (fun hq => hmem (hsubs.mp hq))
        (by rw [hqueue]; exact hitems)

/-- The lock holder moves every queue along, or breaks it for good. -/
theorem move {r r' : Run} {pub pub' : PubPc} {q : QueueId} {n : Nat} (hinv : PubInv r pub)
    (h : Ready r pub q n) (hmove : PubMove r pub r' pub') : Ready r' pub' q n := by
  cases hmove with
  | begin e order _ hbegun horder =>
      -- the log runs ahead of every subscriber's queue
      have horder' : q ∈ order ↔ q ∈ r.subscribers := horder.mem_iff
      cases h with
      | behind hmem _ => cases hmem
      | current _ hmem hholds =>
          refine .behind (horder'.mpr hmem) ?_
          rw [hbegun.queues, hbegun.published, List.dropLast_concat]
          exact hholds
      | broken hq => cases hq
      | evicted _ hmem hitems =>
          refine .evicted (fun hq => hmem (horder'.mp hq)) ?_ ?_
          · rw [hbegun.subscribers]
            exact hmem
          · rw [hbegun.queues]
            exact hitems
  | done e => exact h.frame rfl rfl Iff.rfl Iff.rfl nofun
  | put e q' todo queue hitems =>
      have hnodup := List.nodup_cons.mp hinv.nodup
      by_cases hq : q = q'
      · -- its turn has come: the queue catches up with the log
        subst hq
        have hsub : q ∈ r.subscribers := hinv.subscribed q List.mem_cons_self
        cases h with
        | behind _ hholds =>
            refine .current hnodup.1 hsub ?_
            obtain ⟨past, hlog, -⟩ := (hinv.publishing e rfl).last
            obtain ⟨hn, heq⟩ := hholds
            rw [hlog, List.dropLast_concat] at hn heq
            have hqueue : (r.setQueue q queue).queues q = queue := update_self _ _ _
            have hlog' : (r.setQueue q queue).published = past ++ [e] := hlog
            rw [hqueue, hlog']
            refine ⟨?_, ?_⟩
            · rw [List.length_append]
              exact Nat.le_add_right_of_le hn
            · rw [hitems, heq, List.drop_append_of_le_length hn, List.map_append]
              rfl
        | current hnot _ _ => exact absurd List.mem_cons_self hnot
        | broken hbroken => cases hbroken
        | evicted _ hnot _ => exact absurd hsub hnot
      · refine h.frame (update_of_ne _ _ hq) rfl Iff.rfl ?_ nofun
        simp [PubPc.behind, hq]
  | evict e q' todo =>
      by_cases hq : q = q'
      · -- still whole: nothing has been taken out of it yet
        subst hq
        cases h with
        | behind hmem hholds => exact .behind hmem hholds
        | current hnot _ _ => exact absurd List.mem_cons_self hnot
        | broken hbroken => cases hbroken
        | evicted hnot _ _ => exact absurd List.mem_cons_self hnot
      · exact h.frame rfl rfl (List.mem_erase_of_ne hq) Iff.rfl nofun
  | discard e q' discarded todo item queue hitems =>
      by_cases hq : q = q'
      · subst hq
        exact .broken rfl
      · refine h.frame (update_of_ne _ _ hq) rfl Iff.rfl ?_ ?_
        · cases discarded <;> simp [PubPc.behind, hq]
        · intro hbroken
          cases discarded with
          | false => cases hbroken
          | true => exact hbroken
  | emptied e q' discarded todo hempty =>
      by_cases hq : q = q'
      · subst hq
        have hnot : q ∉ r.subscribers := hinv.evicted q rfl
        refine .evicted (fun hmem => hnot (hinv.subscribed q hmem)) hnot ?_
        rw [hempty]
        exact nofun
      · refine h.frame rfl rfl Iff.rfl ?_ ?_
        · cases discarded <;> simp [PubPc.behind, hq]
        · intro hbroken
          cases discarded with
          | false => cases hbroken
          | true =>
              cases hbroken
              exact absurd rfl hq
  | mark e q' todo queue hitems =>
      by_cases hq : q = q'
      · subst hq
        have hnot : q ∉ r.subscribers := hinv.evicted q rfl
        have hqueue : (r.setQueue q queue).queues q = queue := update_self _ _ _
        refine .evicted (fun hmem => hnot (hinv.subscribed q hmem)) hnot ?_
        rw [hqueue, hitems]
        exact fun item hitem => List.mem_singleton.mp hitem
      · exact h.frame (update_of_ne _ _ hq) rfl Iff.rfl Iff.rfl nofun

/-- A handler takes the event at its position. -/
theorem take {r : Run} {pub : PubPc} {q : QueueId} {n : Nat} {e : Event} {queue : EventQueue}
    (h : Ready r pub q n) (hitems : (r.queues q).items = some e :: queue.items)
    (hwhole : pub.broken? ≠ some q) :
    r.published[n]? = some e ∧ Ready (r.setQueue q queue) pub q (n + 1) := by
  have hqueue : (r.setQueue q queue).queues q = queue := update_self _ _ _
  cases h with
  | behind hmem hholds =>
      obtain ⟨hget, hholds'⟩ := hholds.take hitems
      have hlt := (List.getElem?_eq_some_iff.mp hget).1
      refine ⟨?_, .behind hmem ?_⟩
      · rw [List.getElem?_dropLast] at hget
        split at hget
        · exact hget
        · cases hget
      · rw [hqueue]
        exact hholds'
  | current hnot hmem hholds =>
      obtain ⟨hget, hholds'⟩ := hholds.take hitems
      refine ⟨hget, .current hnot hmem ?_⟩
      rw [hqueue]
      exact hholds'
  | broken hbroken => exact absurd hbroken hwhole
  | evicted _ _ hnone =>
      have hhead := hnone (some e) (hitems ▸ List.mem_cons_self)
      cases hhead

end Ready

/-! ## A client over a whole run -/

/-- What a client has been sent and what its handler has in hand. -/
def Client.sent (client : Client) : List Event := client.written ++ client.pc.upcoming

theorem Client.sent_of_upcoming {client : Client} (h : client.pc.upcoming = []) :
    client.sent = client.written := by
  rw [Client.sent, h, List.append_nil]

namespace StreamState

/-- `c` never takes an item out of its queue while an eviction of it is under way
that has thrown away an item already. -/
def sparesEviction (c : ClientId) (s : StreamState) (act : StreamAct) : Bool :=
  match act, (s.clients c).pc with
  | .get c', .waiting q =>
      c' != c || s.pub.broken? != some q || (s.run.queues q).items.isEmpty
  | _, _ => true

/-- The queue `c` takes an item from is whole. -/
theorem sparesEviction_get {s : StreamState} {c : ClientId} {q : QueueId} {item : Option Event}
    {rest : List (Option Event)} (h : sparesEviction c s (.get c) = true)
    (hpc : (s.clients c).pc = .waiting q) (hitems : (s.run.queues q).items = item :: rest) :
    s.pub.broken? ≠ some q := by
  unfold sparesEviction at h
  rw [hpc] at h
  simpa [hitems] using h

/-- Client `c` has lost nothing, and its queue continues where it stands. -/
structure Tracks (s : StreamState) (c : ClientId) : Prop where
  sent : s.run.Sent (s.clients c).sent
  ready : ∀ q, (s.clients c).pc.listening? = some q →
    Ready s.run s.pub q (lastId (s.clients c).sent)

/-- The step of another client `j` on a queue that is not `c`'s. -/
theorem Tracks.other {s : StreamState} {c j : ClientId} {client : Client} (run : Run)
    (h : s.Tracks c) (hj : c ≠ j) (hpub : run.published = s.run.published)
    (hqueue : ∀ q, (s.clients c).pc.queue? = some q → run.queues q = s.run.queues q ∧
      (q ∈ run.subscribers ↔ q ∈ s.run.subscribers)) :
    ({ s with run }.setClient j client).Tracks c := by
  refine ⟨?_, ?_⟩
  · rw [setClient_of_ne _ _ hj]
    exact h.sent.mono (fun e he => hpub ▸ he)
  · intro q hq
    rw [setClient_of_ne _ _ hj] at hq ⊢
    obtain ⟨hitems, hsubs⟩ := hqueue q (ClientPc.queue?_of_listening hq)
    exact (h.ready q hq).frame hitems hpub hsubs Iff.rfl id

/-- A step of `c` that touches neither the run nor the order of what it is sent. -/
theorem Tracks.own {s : StreamState} {c : ClientId} {client : Client} (h : s.Tracks c)
    (hsent : client.sent = (s.clients c).sent)
    (hlistening : ∀ q, client.pc.listening? = some q →
      (s.clients c).pc.listening? = some q) : (s.setClient c client).Tracks c := by
  refine ⟨?_, ?_⟩
  · rw [setClient_self, hsent]
    exact h.sent
  · intro q hq
    rw [setClient_self] at hq ⊢
    rw [hsent]
    exact h.ready q (hlistening q hq)

/-- `c` lets go of its connection. -/
theorem Tracks.leave {s : StreamState} {c : ClientId} {pc : ClientPc} (run : Run)
    (h : s.Tracks c) (hpub : run.published = s.run.published) (hnone : pc.listening? = none)
    (hupcoming : pc.upcoming = []) :
    ({ s with run }.setClient c { s.clients c with pc }).Tracks c := by
  refine ⟨?_, ?_⟩
  · rw [setClient_self, Client.sent_of_upcoming hupcoming]
    exact h.sent.of_append.mono (fun e he => hpub ▸ he)
  · intro q hq
    rw [setClient_self, hnone] at hq
    cases hq

/-- `c` connects: it will be sent the backlog, and its new queue is empty. -/
theorem Tracks.subscribe {s : StreamState} {c : ClientId} (h : s.Tracks c) (hrun : s.run.Inv)
    (hidle : s.pub = .idle) (hpc : (s.clients c).pc = .away) :
    ({ s with run := s.run.afterSubscribe }.setClient c
      { s.clients c with
        pc := .writing s.run.nextQueue (s.run.backlog (lastId (s.clients c).written))
          s.run.terminal.isSome }).Tracks c := by
  have hsent := h.sent
  rw [Client.sent_of_upcoming (by rw [hpc]; rfl)] at hsent
  obtain ⟨hbacklog, hlast⟩ := hsent.backlog hrun
  refine ⟨?_, ?_⟩
  · rw [setClient_self]
    exact hbacklog.mono (fun _ he => he)
  intro q hq
  rw [setClient_self] at hq ⊢
  cases hterm : s.run.terminal.isSome with
  | true =>
      rw [hterm] at hq
      cases hq
  | false =>
      -- the backlog ends at the end of the log
      rw [hterm] at hq
      cases hq
      have hpub : ({ s with run := s.run.afterSubscribe } : StreamState).pub = .idle := hidle
      have hend : lastId ((s.clients c).written ++
          s.run.backlog (lastId (s.clients c).written)) = s.run.published.length :=
        (hlast hterm).trans hrun.log.sequence
      refine .current ?_ ?_ ⟨Nat.le_of_eq hend, ?_⟩
      · rw [setClient_pub, hpub]
        exact List.not_mem_nil
      · simp [Run.afterSubscribe, hterm]
      · simp [Run.afterSubscribe, Client.sent, ClientPc.upcoming, hend]

/-- `c` takes from a whole queue: its head is the event at the client's position. -/
theorem Tracks.take {s : StreamState} {c : ClientId} {q : QueueId} {e : Event}
    {queue : EventQueue} (h : s.Tracks c) (hlog : s.run.LogInv)
    (hpc : (s.clients c).pc = .waiting q)
    (hitems : (s.run.queues q).items = some e :: queue.items) (hwhole : s.pub.broken? ≠ some q) :
    ({ s with run := s.run.setQueue q queue }.setClient c
      { s.clients c with pc := .holding q e }).Tracks c := by
  have hready := h.ready q (by rw [hpc]; rfl)
  have hsent := h.sent
  rw [Client.sent_of_upcoming (by rw [hpc]; rfl)] at hready hsent
  obtain ⟨hget, hready'⟩ := hready.take hitems hwhole
  obtain ⟨hsent', hlast⟩ := hsent.snoc hlog hget
  refine ⟨?_, ?_⟩
  · rw [setClient_self]
    exact hsent'.mono (fun _ he => he)
  intro q' hq'
  rw [setClient_self] at hq' ⊢
  cases hq'
  have hposition : lastId (Client.sent { s.clients c with pc := .holding q e }) =
      lastId (s.clients c).written + 1 := hlast
  rw [hposition]
  exact hready'

theorem Tracks.move {s s' : StreamState} {act : StreamAct} {c : ClientId} (hinv : s.Inv)
    (h : s.Tracks c) (hmove : Move s act s') (hspares : sparesEviction c s act = true) :
    s'.Tracks c := by
  cases hmove with
  | publish _ run pub hpub _ =>
      exact ⟨h.sent.mono hpub.published_mono, fun q hq => (h.ready q hq).move hinv.pub hpub⟩
  | stay _ => exact h
  | subscribe j hidle hpc hlt =>
      by_cases hj : c = j
      · subst hj
        exact h.subscribe (hinv.pub.run_inv hidle) hidle hpc
      · refine h.other _ hj rfl ?_
        intro q hq
        have hne : q ≠ s.run.nextQueue := Nat.ne_of_lt (hinv.queues.created c q hq)
        refine ⟨update_of_ne _ _ hne, ?_⟩
        simp only [Run.afterSubscribe]
        split <;> simp [hne]
  | writeBacklog j q e rest done hpc =>
      by_cases hj : c = j
      · subst hj
        refine h.own ?_ (fun q' hq' => ?_)
        · simp [Client.sent, hpc, ClientPc.upcoming]
        · rw [hpc]
          cases done <;> exact hq'
      · exact h.other s.run hj rfl (fun _ _ => ⟨rfl, Iff.rfl⟩)
  | endBacklog j q done hpc =>
      by_cases hj : c = j
      · subst hj
        refine h.own ?_ (fun q' hq' => ?_)
        · cases done <;> simp [Client.sent, hpc, ClientPc.upcoming]
        · rw [hpc]
          cases done with
          | true => cases hq'
          | false => exact hq'
      · exact h.other s.run hj rfl (fun _ _ => ⟨rfl, Iff.rfl⟩)
  | writeTaken j q e hpc =>
      by_cases hj : c = j
      · subst hj
        refine h.own ?_ (fun q' hq' => ?_)
        · cases hend : e.isEnd <;> simp [Client.sent, hpc, ClientPc.upcoming]
        · rw [hpc]
          cases hend : e.isEnd with
          | true =>
              rw [hend] at hq'
              cases hq'
          | false =>
              rw [hend] at hq'
              exact hq'
      · exact h.other s.run hj rfl (fun _ _ => ⟨rfl, Iff.rfl⟩)
  | take j q e queue hpc hitems =>
      by_cases hj : c = j
      · subst hj
        exact h.take hinv.pub.log hpc hitems (sparesEviction_get hspares hpc hitems)
      · refine h.other _ hj rfl (fun q' hq' => ⟨?_, Iff.rfl⟩)
        have hne := hinv.queues.ne_of_clients hj hq' (by rw [hpc]; rfl)
        exact update_of_ne _ _ hne
  | takeNone j q queue hpc hitems =>
      by_cases hj : c = j
      · subst hj
        exact h.leave _ rfl rfl rfl
      · refine h.other _ hj rfl (fun q' hq' => ⟨?_, Iff.rfl⟩)
        have hne := hinv.queues.ne_of_clients hj hq' (by rw [hpc]; rfl)
        exact update_of_ne _ _ hne
  | drop j q hq =>
      by_cases hj : c = j
      · subst hj
        exact h.leave s.run rfl rfl rfl
      · exact h.other s.run hj rfl (fun _ _ => ⟨rfl, Iff.rfl⟩)
  | unsubscribe j q hidle hpc =>
      by_cases hj : c = j
      · subst hj
        exact h.leave _ rfl rfl rfl
      · refine h.other _ hj rfl (fun q' hq' => ⟨rfl, ?_⟩)
        have hne := hinv.queues.ne_of_clients hj hq' (by rw [hpc]; rfl)
        exact List.mem_erase_of_ne hne

/-- The steps of an interleaving in which `c` keeps out of evictions. -/
def sparing (c : ClientId) : TSys StreamState StreamAct :=
  system.restrict (fun s act => sparesEviction c s act = true)

theorem tracks_invariant (c : ClientId) : (sparing c).Invariant (fun s => s.Tracks c) := by
  refine (inv_invariant.restrict _).strengthen ?_ ?_
  · rintro s ⟨-, -, hclients⟩
    refine ⟨⟨?_, ?_⟩, ?_⟩
    · rw [hclients c]
      exact .singleton _
    · rw [hclients c]
      exact nofun
    · rw [hclients c]
      exact nofun
  · intro s act s' hinv _ h hstep
    exact h.move hinv (step_move hinv.pub hstep.2) hstep.1

/-- **No silent gap.** Whatever the publisher and the handlers do in whatever
order, a client that never takes from its queue in the middle of an eviction is
sent every id once, from the first or from a `reset` on; only the terminal event
may be sent again. -/
theorem stream_gapless (c : ClientId) (s : StreamState) (h : (sparing c).Reachable s) :
    Gapless (s.clients c).written :=
  (tracks_invariant c s h).sent.of_append.gapless

/-! ## Two runs -/

def newStream : StreamState :=
  ⟨Run.new "r".toList "ping".toList "ping".toList 0, .idle, fun _ => ⟨.away, []⟩⟩

theorem newStream_initial : Initial newStream :=
  ⟨⟨_, _, _, _, rfl⟩, rfl, fun _ => rfl⟩

/-- One publication to one subscriber with room, without interleaving. -/
def publishTurn (op : Op) : List StreamAct := [.begin op [0], .publisher, .publisher]

/-- A client follows a run to its end and connects again. -/
def followToEnd : List StreamAct :=
  [.subscribe 0, .write 0] ++ publishTurn (.finish 0 1 (.error .other)) ++
    [.get 0, .write 0, .unsubscribe 0, .subscribe 0, .write 0]

/-- A client reads one line and falls a full queue behind; it takes an item when
the eviction has discarded one. -/
def takeDuringEviction : List StreamAct :=
  [.subscribe 0, .write 0] ++ publishTurn (.emit "x".toList) ++ [.get 0, .write 0] ++
    (List.replicate queueSize (publishTurn (.emit "x".toList))).flatten ++
    [.begin (.emit "x".toList) [0], .publisher, .publisher, .get 0, .write 0]

/-- Client 0 has been sent the ids `ids`. -/
def writtenIds (ids : List Nat) (s : StreamState) : Bool :=
  (s.clients 0).written.map Event.id == ids

/-- Nothing is under way, and nobody is connected. -/
structure Quiet (s : StreamState) : Prop where
  idle : s.pub = .idle
  nobody : s.run.subscribers = []
  running : s.run.terminal = none
  away : (s.clients 0).pc = .away

/-- A line that nobody follows. -/
theorem Quiet.emit {s : StreamState} (h : s.Quiet) (hs : (sparing 0).Reachable s) :
    ∃ s', (sparing 0).Reachable s' ∧ s'.Quiet ∧ s'.clients = s.clients ∧
      s'.run.sequence = s.run.sequence + 1 := by
  let line := "x".toList.take maxLineChars
  let recorded := { s.run with lines := s.run.lines.push line }.record (.log line)
  have hpublish : s.run.beginPublish (.emit "x".toList) = some recorded := by
    unfold Run.beginPublish
    simp only
    rw [if_neg (by rw [h.running]; exact Bool.false_ne_true)]
  have hbegin : system.step s (.begin (.emit "x".toList) [])
      { s with run := recorded.2, pub := .offering recorded.1 [] } := by
    show step s _ = _
    unfold step
    simp only
    rw [if_pos ⟨h.idle, h.nobody ▸ .nil⟩, hpublish]
  have hoffered : system.step { s with run := recorded.2, pub := .offering recorded.1 [] } .publisher
      { s with run := recorded.2, pub := .idle } := rfl
  exact ⟨_, .step (.step hs ⟨rfl, hbegin⟩) ⟨rfl, hoffered⟩,
    ⟨rfl, h.nobody, h.running, h.away⟩, rfl, rfl⟩

theorem Quiet.emits {s : StreamState} (h : s.Quiet) (hs : (sparing 0).Reachable s) (n : Nat) :
    ∃ s', (sparing 0).Reachable s' ∧ s'.Quiet ∧ s'.clients = s.clients ∧
      s'.run.sequence = s.run.sequence + n := by
  induction n with
  | zero => exact ⟨s, hs, h, rfl, rfl⟩
  | succ n ih =>
      obtain ⟨s₁, hs₁, h₁, hclients, hsequence⟩ := ih
      obtain ⟨s₂, hs₂, h₂, hclients', hsequence'⟩ := h₁.emit hs₁
      exact ⟨s₂, hs₂, h₂, hclients'.trans hclients, by omega⟩

/-- A client reads one line, falls a full queue behind and is evicted. -/
def evicted : List StreamAct :=
  [.subscribe 0, .write 0] ++ publishTurn (.emit "x".toList) ++ [.get 0, .write 0] ++
    (List.replicate queueSize (publishTurn (.emit "x".toList))).flatten ++
    [.begin (.emit "x".toList) [0], .publisher] ++ List.replicate (queueSize + 3) .publisher ++
    [.get 0, .unsubscribe 0]

/-- The client that was evicted comes back when the ring has lost what it missed. -/
theorem stream_gapless_evicted :
    ∃ s, (sparing 0).Reachable s ∧ writtenIds [1, 0, 259] s = true ∧
      Gapless (s.clients 0).written := by
  obtain ⟨s₀, hs₀, hp⟩ := TSys.exists_reachable_of_runFn
    (f := TSys.guarded (sparesEviction 0) step) evicted
    (fun s => writtenIds [1] s && decide (s.pub = .idle ∧ s.run.subscribers = [] ∧
      (s.clients 0).pc = .away ∧ s.run.sequence = 258) && s.run.terminal.isNone)
    newStream_initial (by decide +kernel)
  simp only [Bool.and_eq_true, decide_eq_true_eq, Option.isNone_iff_eq_none] at hp
  obtain ⟨⟨hids, hidle, hnobody, haway, hsequence⟩, hrunning⟩ := hp
  obtain ⟨s, hs, hquiet, hclients, hlater⟩ :=
    Quiet.emits ⟨hidle, hnobody, hrunning, haway⟩ hs₀.of_guarded 2000
  have hsequence : s.run.sequence = 2258 := hlater.trans (congrArg (· + 2000) hsequence)
  -- the oldest event kept is 259
  have hlog := (inv_invariant.restrict _ s hs).pub.log
  obtain ⟨oldest, hhead, -, -, hlen⟩ := hlog.oldest (by omega)
  have hlength := hlog.retained.length
  rw [← hlog.sequence, hsequence] at hlength
  have hmax : maxLines = 2000 := by unfold maxLines; rfl
  have holdest : oldest.id = 259 := by omega
  obtain ⟨rest, hitems⟩ : ∃ rest, s.run.events.items = oldest :: rest :=
    List.head?_eq_some_iff.mp hhead
  -- the client has seen event 1
  obtain ⟨seen, hwritten, hseen⟩ : ∃ seen, (s.clients 0).written = [seen] ∧ seen.id = 1 := by
    rw [hclients]
    exact List.map_eq_singleton_iff.mp (eq_of_beq hids)
  have hbacklog : s.run.backlog 1 = resetEvent :: oldest :: rest := by
    unfold Run.backlog
    rw [hquiet.running, ← hitems]
    exact Run.replay_out_of_range hhead (by omega)
  have hlt : s.run.subscribers.length < maxSubscribers := by
    rw [hquiet.nobody]
    decide +kernel
  let writing (rest written : List Event) : Client := ⟨.writing s.run.nextQueue rest false, written⟩
  let s₁ := { s with run := s.run.afterSubscribe, pub := .idle }.setClient 0
    (writing (resetEvent :: oldest :: rest) [seen])
  let s₂ := s₁.setClient 0 (writing (oldest :: rest) [seen, resetEvent])
  let s₃ := s₂.setClient 0 (writing rest [seen, resetEvent, oldest])
  have hsubscribe : system.step s (.subscribe 0) s₁ := by
    show s.clientSubscribe 0 = _
    unfold clientSubscribe
    simp only
    rw [hquiet.idle, hquiet.away, hwritten, show lastId [seen] = 1 from hseen,
      Run.subscribe_of_lt 1 hlt, hbacklog, hquiet.running]
    rfl
  have hwrite : ∀ (t : StreamState) (event : Event) (rest written : List Event),
      t.clients 0 = writing (event :: rest) written →
        system.step t (.write 0) (t.setClient 0 (writing rest (written ++ [event]))) := by
    intro t event rest written hclient
    show t.clientWrite 0 = _
    unfold clientWrite
    rw [hclient]
  have hreset : system.step s₁ (.write 0) s₂ :=
    hwrite s₁ resetEvent (oldest :: rest) [seen] (update_self s.clients 0 _)
  have htail : system.step s₂ (.write 0) s₃ :=
    hwrite s₂ oldest rest [seen, resetEvent] (update_self s₁.clients 0 _)
  have hreach := TSys.Reachable.step (.step (.step hs ⟨rfl, hsubscribe⟩) ⟨rfl, hreset⟩) ⟨rfl, htail⟩
  refine ⟨_, hreach, ?_, stream_gapless 0 _ hreach⟩
  have hlast : (s₃.clients 0).written.map Event.id = [1, 0, 259] := by
    rw [← hseen, ← holdest]
    rfl
  exact beq_of_eq hlast

/-- Consecutive ids but for a `reset`, with no other exception. -/
def Consecutive (events : List Event) : Prop :=
  List.IsChain (fun e e' => e.isReset = true ∨ e'.isReset = true ∨ e'.id = e.id + 1) events

instance (events : List Event) : Decidable (Consecutive events) :=
  inferInstanceAs (Decidable (List.IsChain _ events))

/-- Neither exception can be left out: an id is sent twice to the client that
connects after the end, and the client that takes during an eviction is sent
id 3 right after id 1. -/
theorem stream_not_consecutive :
    (∃ s, system.Reachable s ∧ writtenIds [1, 1] s = true ∧
      ¬ Consecutive (s.clients 0).written) ∧
    ∃ s, system.Reachable s ∧ writtenIds [1, 3] s = true ∧
      ¬ Consecutive (s.clients 0).written := by
  have hgap : ∀ acts ids,
      (TSys.runFn step newStream acts).any
        (fun s => writtenIds ids s && !decide (Consecutive (s.clients 0).written)) = true →
      ∃ s, system.Reachable s ∧ writtenIds ids s = true ∧
        ¬ Consecutive (s.clients 0).written := by
    intro acts ids hrun
    obtain ⟨s, hs, hp⟩ := TSys.exists_reachable_of_runFn acts _ newStream_initial hrun
    rw [Bool.and_eq_true, Bool.not_eq_true', decide_eq_false_iff_not] at hp
    exact ⟨s, hs, hp⟩
  exact ⟨hgap followToEnd [1, 1] (by decide +kernel),
    hgap takeDuringEviction [1, 3] (by decide +kernel)⟩

end StreamState

end SrxProbe.Dashboard
