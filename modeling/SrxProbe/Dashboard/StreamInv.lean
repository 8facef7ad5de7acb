import SrxProbe.Dashboard.Stream

/-!
# What a step of the live stream does

The moves of the lock holder and of the handlers, each with what it has checked,
and the invariant of the lock holder: in the middle of `_publish` the log is one
event ahead of the queues in `PubPc.behind`, and nothing in it can raise. The
handlers never get in its way.
-/

namespace SrxProbe.Dashboard

open SrxProbe.Lib

namespace PubPc

/-- The event under way. -/
def event? : PubPc → Option Event
  | .idle => none
  | .offering e _ => some e
  | .draining e _ _ _ => some e
  | .marking e _ _ => some e

/-- The subscribers that the loop has not come to. -/
def todo : PubPc → List QueueId
  | .idle => []
  | .offering _ todo => todo
  | .draining _ _ _ todo => todo
  | .marking _ _ todo => todo

/-- Queues that are whole but for the event under way. A full queue stays whole
until the first item is taken out of it. -/
def behind : PubPc → List QueueId
  | .idle => []
  | .offering _ todo => todo
  | .draining _ q discarded todo => if discarded then todo else q :: todo
  | .marking _ _ todo => todo

/-- The queue that items have been discarded from, and that may hold more. -/
def broken? : PubPc → Option QueueId
  | .draining _ q true _ => some q
  | _ => none

/-- The queue that is being evicted. -/
def evicting? : PubPc → Option QueueId
  | .draining _ q _ _ => some q
  | .marking _ q _ => some q
  | _ => none

end PubPc

namespace Run

/-! ## Taking the lock -/

/-- A run in the middle of publishing `e`: the latch is as `e` will leave it,
but for `terminal`. -/
structure Publishing (r : Run) (e : Event) : Prop where
  terminal : r.terminal = none
  last : ∃ past, r.published = past ++ [e] ∧ ∀ e' ∈ past, e'.isEnd = false
  ends : e.isEnd = true → r.ended.isSome = true ∧ r.returncode.isSome = true
  continues : e.isEnd = false → r.ended = none ∧ r.returncode = none

/-- What `emit` and `finish` do before the loop of `_publish`. -/
structure Begun (r : Run) (e : Event) (r' : Run) : Prop where
  terminal : r.terminal.isSome = false
  published : r'.published = r.published ++ [e]
  subscribers : r'.subscribers = r.subscribers
  queues : r'.queues = r.queues
  nextQueue : r'.nextQueue = r.nextQueue
  log : r.LogInv → r'.LogInv
  output : r.OutputInv → r'.OutputInv
  publishing : r.Active → r'.Publishing e

theorem beginPublish_some {r r' : Run} {op : Op} {e : Event}
    (h : r.beginPublish op = some (e, r')) : Begun r e r' := by
  cases op with
  | emit line =>
      simp only [beginPublish] at h
      split at h
      · cases h
      · rename_i hterm
        cases h
        refine ⟨by simpa using hterm, rfl, rfl, rfl, rfl, ?_, ?_, ?_⟩
        · intro hlog
          have hafter : (r.afterEmit line).LogInv :=
            LogInv.afterPublish (hlog.of_eq rfl rfl rfl) rfl
          exact hafter.of_eq rfl rfl rfl
        · intro hout
          exact (hout.afterEmit line).of_eq rfl rfl
        · intro hactive
          refine ⟨hactive.terminal, ⟨r.published, rfl, hactive.unended⟩, ?_, ?_⟩
          · intro hend
            cases hend
          · exact fun _ => ⟨hactive.ended, hactive.returncode⟩
  | finish rc now recorded =>
      simp only [beginPublish] at h
      split at h
      · cases h
      · rename_i hterm
        cases h
        refine ⟨by simpa using hterm, rfl, rfl, rfl, rfl, ?_, ?_, ?_⟩
        · intro hlog
          have hstamped : ({ r with returncode := some rc, ended := some now } : Run).LogInv :=
            hlog.of_eq rfl rfl rfl
          have hafter : (r.afterFinish rc now recorded).LogInv :=
            (LogInv.afterPublish hstamped rfl).of_eq rfl rfl rfl
          exact hafter.of_eq rfl rfl rfl
        · intro hout
          exact (hout.afterFinish rc now recorded).of_eq rfl rfl
        · intro hactive
          refine ⟨hactive.terminal, ⟨r.published, rfl, hactive.unended⟩, ?_, ?_⟩
          · exact fun _ => ⟨rfl, rfl⟩
          · intro hend
            cases hend
  | subscribe lastId => cases h
  | unsubscribe q => cases h
  | get q => cases h

/-- Setting `terminal` when the loop is over completes the latch. -/
theorem Publishing.latch {r : Run} {e : Event} (h : r.Publishing e) :
    ({ r with terminal := if e.isEnd then some e else r.terminal } : Run).Latch := by
  obtain ⟨past, hpub, hpast⟩ := h.last
  cases hend : e.isEnd with
  | true =>
      obtain ⟨hended, hrc⟩ := h.ends hend
      exact .inr ⟨e, rfl, hended, hrc, hend, past, hpub, hpast⟩
  | false =>
      obtain ⟨hended, hrc⟩ := h.continues hend
      refine .inl ⟨h.terminal, hended, hrc, ?_⟩
      intro e' he'
      rcases List.mem_append.mp (hpub ▸ he' : e' ∈ past ++ [e]) with hmem | hmem
      · exact hpast e' hmem
      · rw [List.mem_singleton] at hmem
        exact hmem ▸ hend

theorem Publishing.of_eq {r r' : Run} {e : Event} (h : r.Publishing e)
    (hterm : r'.terminal = r.terminal) (hpub : r'.published = r.published)
    (hended : r'.ended = r.ended) (hrc : r'.returncode = r.returncode) : r'.Publishing e where
  terminal := hterm.trans h.terminal
  last := hpub ▸ h.last
  ends := by rw [hended, hrc]; exact h.ends
  continues := by rw [hended, hrc]; exact h.continues

end Run

/-! ## The moves of the lock holder -/

/-- A run with one queue replaced. -/
def Run.setQueue (r : Run) (q : QueueId) (queue : EventQueue) : Run :=
  { r with queues := update r.queues q queue }

/-- One step of the lock holder. -/
inductive PubMove (r : Run) : PubPc → Run → PubPc → Prop
  | begin e order r' : r.Begun e r' → order.Perm r.subscribers →
      PubMove r .idle r' (.offering e order)
  | done e : PubMove r (.offering e [])
      { r with terminal := if e.isEnd then some e else r.terminal } .idle
  | put e q todo (queue : EventQueue) : queue.items = (r.queues q).items ++ [some e] →
      PubMove r (.offering e (q :: todo)) (r.setQueue q queue) (.offering e todo)
  /-- `queue.Full` -/
  | evict e q todo : PubMove r (.offering e (q :: todo))
      { r with subscribers := r.subscribers.erase q } (.draining e q false todo)
  | discard e q discarded todo item (queue : EventQueue) :
      (r.queues q).items = item :: queue.items →
      PubMove r (.draining e q discarded todo) (r.setQueue q queue) (.draining e q true todo)
  /-- `queue.Empty` -/
  | emptied e q discarded todo : (r.queues q).items = [] →
      PubMove r (.draining e q discarded todo) r (.marking e q todo)
  | mark e q todo (queue : EventQueue) : queue.items = [none] →
      PubMove r (.marking e q todo) (r.setQueue q queue) (.offering e todo)

/-- What holds between any two steps of the lock holder. -/
structure PubInv (r : Run) (pub : PubPc) : Prop where
  log : r.LogInv
  output : r.OutputInv
  subs : r.SubsInv
  latch : pub = .idle → r.Latch
  publishing : ∀ e, pub.event? = some e → r.Publishing e
  nodup : pub.todo.Nodup
  subscribed : ∀ q ∈ pub.todo, q ∈ r.subscribers
  evicted : ∀ q, pub.evicting? = some q → q ∉ r.subscribers
  emptied : ∀ e q todo, pub = .marking e q todo → (r.queues q).items = []

/-- No move creates a queue. -/
theorem PubMove.nextQueue {r r' : Run} {pub pub' : PubPc} (h : PubMove r pub r' pub') :
    r'.nextQueue = r.nextQueue := by
  cases h with
  | begin e order _ hbegun _ => exact hbegun.nextQueue
  | _ => rfl

/-- No move takes an event back. -/
theorem PubMove.published_mono {r r' : Run} {pub pub' : PubPc} (h : PubMove r pub r' pub') :
    ∀ e ∈ r.published, e ∈ r'.published := by
  intro e he
  cases h with
  | begin _ order _ hbegun _ => exact hbegun.published ▸ List.mem_append_left _ he
  | _ => exact he

namespace PubInv

/-- With the lock free, it is the invariant of whole operations. -/
theorem idle {r : Run} (h : r.Inv) : PubInv r .idle :=
  ⟨h.log, h.output, h.subs, fun _ => h.latch, nofun, List.nodup_nil, nofun, nofun, nofun⟩

theorem run_inv {r : Run} {pub : PubPc} (h : PubInv r pub) (hidle : pub = .idle) : r.Inv :=
  ⟨h.log, h.output, h.subs, h.latch hidle⟩

/-- Only the queues differ, and none gains an item. -/
theorem of_queues {r r' : Run} {pub : PubPc} (h : PubInv r pub)
    (hlog : r.LogInv → r'.LogInv) (hout : r.OutputInv → r'.OutputInv)
    (hsubs : r'.subscribers = r.subscribers) (hsub : r.SubsInv → r'.SubsInv)
    (hlatch : r.Latch → r'.Latch) (hpublishing : ∀ e, r.Publishing e → r'.Publishing e)
    (hqueues : ∀ q, (r.queues q).items = [] → (r'.queues q).items = []) : PubInv r' pub where
  log := hlog h.log
  output := hout h.output
  subs := hsub h.subs
  latch := fun hidle => hlatch (h.latch hidle)
  publishing := fun e he => hpublishing e (h.publishing e he)
  nodup := h.nodup
  subscribed := fun q hq => hsubs ▸ h.subscribed q hq
  evicted := fun q hq => hsubs ▸ h.evicted q hq
  emptied := fun e q todo hpub => hqueues q (h.emptied e q todo hpub)

/-- The lock holder keeps its invariant. -/
theorem move {r r' : Run} {pub pub' : PubPc} (h : PubInv r pub) (hmove : PubMove r pub r' pub') :
    PubInv r' pub' := by
  cases hmove with
  | begin e order _ hbegun horder =>
      have hlatch : r.Active := (h.latch rfl).active hbegun.terminal
      refine ⟨hbegun.log h.log, hbegun.output h.output, ?_, nofun, ?_, ?_, ?_, nofun, nofun⟩
      · exact h.subs.sublist (hbegun.subscribers ▸ List.Sublist.refl _) hbegun.nextQueue
      · intro e' he'
        cases he'
        exact hbegun.publishing hlatch
      · exact horder.nodup_iff.mpr h.subs.nodup
      · intro q hq
        rw [hbegun.subscribers]
        exact horder.mem_iff.mp hq
  | done e =>
      exact ⟨h.log.of_eq rfl rfl rfl, h.output.of_eq rfl rfl,
        h.subs.sublist (List.Sublist.refl _) rfl, fun _ => (h.publishing e rfl).latch,
        nofun, List.nodup_nil, nofun, nofun, nofun⟩
  | put e q todo queue hitems =>
      refine ⟨h.log.of_eq rfl rfl rfl, h.output.of_eq rfl rfl,
        h.subs.sublist (List.Sublist.refl _) rfl, nofun, ?_, ?_, ?_, nofun, nofun⟩
      · exact fun e' he' => (h.publishing e' he').of_eq rfl rfl rfl rfl
      · exact (List.nodup_cons.mp h.nodup).2
      · exact fun j hj => h.subscribed j (List.mem_cons_of_mem q hj)
  | evict e q todo =>
      have hnodup := List.nodup_cons.mp h.nodup
      refine ⟨h.log.of_eq rfl rfl rfl, h.output.of_eq rfl rfl,
        h.subs.sublist List.erase_sublist rfl, nofun, ?_, hnodup.2, ?_, ?_, nofun⟩
      · exact fun e' he' => (h.publishing e' he').of_eq rfl rfl rfl rfl
      · intro j hj
        have hne : j ≠ q := fun heq => hnodup.1 (heq ▸ hj)
        exact (List.mem_erase_of_ne hne).mpr (h.subscribed j (List.mem_cons_of_mem q hj))
      · intro j hj
        cases hj
        exact h.subs.nodup.not_mem_erase
  | discard e q discarded todo item queue hitems =>
      refine ⟨h.log.of_eq rfl rfl rfl, h.output.of_eq rfl rfl,
        h.subs.sublist (List.Sublist.refl _) rfl, nofun, ?_, h.nodup, h.subscribed,
        h.evicted, nofun⟩
      exact fun e' he' => (h.publishing e' he').of_eq rfl rfl rfl rfl
  | emptied e q discarded todo hempty =>
      refine ⟨h.log, h.output, h.subs, nofun, h.publishing, h.nodup, h.subscribed,
        h.evicted, ?_⟩
      intro e' q' todo' hpub
      cases hpub
      exact hempty
  | mark e q todo queue hitems =>
      refine ⟨h.log.of_eq rfl rfl rfl, h.output.of_eq rfl rfl,
        h.subs.sublist (List.Sublist.refl _) rfl, nofun, ?_, h.nodup, h.subscribed,
        nofun, nofun⟩
      exact fun e' he' => (h.publishing e' he').of_eq rfl rfl rfl rfl

end PubInv

/-! ## The moves of the system -/

namespace ClientPc

/-- The queue of a connection. -/
def queue? : ClientPc → Option QueueId
  | .away => none
  | .writing q _ _ => some q
  | .waiting q => some q
  | .holding q _ => some q
  | .leaving q => some q

/-- The queue a handler will take from, or may. -/
def listening? : ClientPc → Option QueueId
  | .writing q _ false => some q
  | .waiting q => some q
  | .holding q _ => some q
  | _ => none

/-- What a handler has in hand to write. -/
def upcoming : ClientPc → List Event
  | .writing _ rest _ => rest
  | .holding _ e => [e]
  | _ => []

theorem queue?_of_listening {pc : ClientPc} {q : QueueId} (h : pc.listening? = some q) :
    pc.queue? = some q := by
  cases pc with
  | away => cases h
  | writing q' rest done =>
      cases done with
      | true => cases h
      | false => exact h
  | waiting q' => exact h
  | holding q' e => exact h
  | leaving q' => cases h

end ClientPc

namespace StreamState

/-- One step, with what it has checked. -/
inductive Move (s : StreamState) : StreamAct → StreamState → Prop
  | publish act run pub : PubMove s.run s.pub run pub → (∀ c, act ≠ .get c) →
      Move s act { s with run, pub }
  /-- `emit` or `finish` after the end, a refused `subscribe`, an empty queue -/
  | stay act : Move s act s
  | subscribe c : s.pub = .idle → (s.clients c).pc = .away →
      s.run.subscribers.length < maxSubscribers →
      Move s (.subscribe c) ({ s with run := s.run.afterSubscribe }.setClient c
        { s.clients c with
          pc := .writing s.run.nextQueue (s.run.backlog (lastId (s.clients c).written))
            s.run.terminal.isSome })
  | writeBacklog c q e rest done : (s.clients c).pc = .writing q (e :: rest) done →
      Move s (.write c) (s.setClient c ⟨.writing q rest done, (s.clients c).written ++ [e]⟩)
  | endBacklog c q done : (s.clients c).pc = .writing q [] done →
      Move s (.write c)
        (s.setClient c { s.clients c with pc := if done then .leaving q else .waiting q })
  | writeTaken c q e : (s.clients c).pc = .holding q e →
      Move s (.write c) (s.setClient c
        ⟨if e.isEnd then .leaving q else .waiting q, (s.clients c).written ++ [e]⟩)
  | take c q e (queue : EventQueue) : (s.clients c).pc = .waiting q →
      (s.run.queues q).items = some e :: queue.items →
      Move s (.get c) ({ s with run := s.run.setQueue q queue }.setClient c
        { s.clients c with pc := .holding q e })
  | takeNone c q (queue : EventQueue) : (s.clients c).pc = .waiting q →
      (s.run.queues q).items = none :: queue.items →
      Move s (.get c) ({ s with run := s.run.setQueue q queue }.setClient c
        { s.clients c with pc := .leaving q })
  | drop c q : (s.clients c).pc.queue? = some q →
      Move s (.drop c) (s.setClient c { s.clients c with pc := .leaving q })
  | unsubscribe c q : s.pub = .idle → (s.clients c).pc = .leaving q →
      Move s (.unsubscribe c) ({ s with run := s.run.unsubscribe q }.setClient c
        { s.clients c with pc := .away })

/-- The lock holder raises nowhere. -/
theorem publisherStep_move {s s' : StreamState} (h : PubInv s.run s.pub)
    (hstep : s.publisherStep = some s') : Move s .publisher s' := by
  have hget : ∀ c, StreamAct.publisher ≠ .get c := nofun
  unfold publisherStep at hstep
  split at hstep
  · cases hstep
  · rename_i e hpub
    cases hstep
    exact .publish _ _ _ (hpub ▸ PubMove.done e) hget
  · rename_i e q todo hpub
    rw [hpub] at h
    split at hstep
    · rename_i queue hput
      cases hstep
      exact .publish _ _ _ (hpub ▸ PubMove.put e q todo queue (Fifo.putNowait_some hput).2.1) hget
    · have hmem : q ∈ s.run.subscribers := h.subscribed q List.mem_cons_self
      rw [pyRemove, if_pos hmem] at hstep
      cases hstep
      exact .publish _ _ _ (hpub ▸ PubMove.evict e q todo) hget
  · rename_i e q discarded todo hpub
    split at hstep
    · rename_i item queue hitem
      cases hstep
      exact .publish _ _ _
        (hpub ▸ PubMove.discard e q discarded todo item queue (Fifo.getNowait_some hitem).1) hget
    · rename_i hnone
      cases hstep
      exact .publish _ _ _
        (hpub ▸ PubMove.emptied e q discarded todo (Fifo.getNowait_none.mp hnone)) hget
  · rename_i e q todo hpub
    rw [hpub] at h
    have hempty := h.emptied e q todo rfl
    -- only the lock holder puts, so the emptied queue has room for the marker
    obtain ⟨queue, hput, hitems, -⟩ := Fifo.putNowait_of_lt (q := s.run.queues q) none
      (by rw [hempty]; exact queueSize_pos)
    rw [hempty] at hitems
    rw [hput] at hstep
    cases hstep
    exact .publish _ _ _ (hpub ▸ PubMove.mark e q todo queue hitems) hget

/-- Every step of the system is a `Move`. -/
theorem step_move {s s' : StreamState} {act : StreamAct} (h : PubInv s.run s.pub)
    (hstep : s.step act = some s') : Move s act s' := by
  cases act with
  | begin op order =>
      simp only [step] at hstep
      split at hstep
      · rename_i hguard
        obtain ⟨hpub, horder⟩ := hguard
        split at hstep
        · rename_i e run hbegin
          cases hstep
          exact .publish _ _ _
            (hpub ▸ PubMove.begin e order run (Run.beginPublish_some hbegin) horder) nofun
        · cases hstep
          exact .stay _
      · cases hstep
  | publisher => exact publisherStep_move h hstep
  | subscribe c =>
      simp only [step, clientSubscribe] at hstep
      split at hstep
      · rename_i hpub hpc
        split at hstep
        · rename_i sub run hsub
          cases hstep
          obtain ⟨hlt, rfl, rfl⟩ := Run.subscribe_ok hsub
          exact .subscribe c hpub hpc hlt
        · cases hstep
          exact .stay _
      · cases hstep
  | write c =>
      simp only [step, clientWrite] at hstep
      split at hstep
      · rename_i q e rest done hpc
        cases hstep
        exact .writeBacklog c q e rest done hpc
      · rename_i q done hpc
        cases hstep
        exact .endBacklog c q done hpc
      · rename_i q e hpc
        cases hstep
        exact .writeTaken c q e hpc
      · cases hstep
  | get c =>
      simp only [step, clientGet] at hstep
      split at hstep
      · rename_i q hpc
        split at hstep
        · rename_i e run hget
          cases hstep
          obtain ⟨queue, hitems, -, rfl⟩ := Run.get_some hget
          exact .take c q e queue hpc hitems
        · rename_i run hget
          cases hstep
          obtain ⟨queue, hitems, -, rfl⟩ := Run.get_some hget
          exact .takeNone c q queue hpc hitems
        · cases hstep
          exact .stay _
      · cases hstep
  | drop c =>
      simp only [step, clientDrop] at hstep
      split at hstep
      · rename_i q rest done hpc
        cases hstep
        exact .drop c q (hpc ▸ rfl)
      · rename_i q hpc
        cases hstep
        exact .drop c q (hpc ▸ rfl)
      · rename_i q e hpc
        cases hstep
        exact .drop c q (hpc ▸ rfl)
      · cases hstep
  | unsubscribe c =>
      simp only [step, clientUnsubscribe] at hstep
      split at hstep
      · rename_i q hpub hpc
        cases hstep
        exact .unsubscribe c q hpub hpc
      · cases hstep

@[simp] theorem setClient_run (s : StreamState) (c : ClientId) (client : Client) :
    (s.setClient c client).run = s.run := rfl

@[simp] theorem setClient_pub (s : StreamState) (c : ClientId) (client : Client) :
    (s.setClient c client).pub = s.pub := rfl

@[simp] theorem setClient_self (s : StreamState) (c : ClientId) (client : Client) :
    (s.setClient c client).clients c = client := update_self _ _ _

theorem setClient_of_ne (s : StreamState) {c j : ClientId} (client : Client) (h : j ≠ c) :
    (s.setClient c client).clients j = s.clients j := update_of_ne _ _ h

/-- Taking an item out of a queue keeps the lock holder's invariant. -/
theorem pubInv_take {r : Run} {pub : PubPc} (h : PubInv r pub) {q : QueueId}
    {item : Option Event} {queue : EventQueue} (hitems : (r.queues q).items = item :: queue.items) :
    PubInv (r.setQueue q queue) pub := by
  refine h.of_queues (fun h => h.of_eq rfl rfl rfl) (fun h => h.of_eq rfl rfl) rfl
    (fun h => h.sublist (List.Sublist.refl _) rfl) (fun h => h.of_eq rfl rfl rfl rfl)
    (fun _ h => h.of_eq rfl rfl rfl rfl) ?_
  intro j hempty
  by_cases hj : j = q
  · subst hj
    rw [hitems] at hempty
    cases hempty
  · show (update r.queues q queue j).items = []
    rw [update_of_ne _ _ hj, hempty]

/-- So does every step of the system. -/
theorem pubInv_move {s s' : StreamState} {act : StreamAct} (h : PubInv s.run s.pub)
    (hmove : Move s act s') : PubInv s'.run s'.pub := by
  cases hmove with
  | publish _ run pub hpub _ => exact h.move hpub
  | stay _ => exact h
  | subscribe c hidle hpc hlt =>
      show PubInv s.run.afterSubscribe s.pub
      rw [hidle]
      exact .idle ((h.run_inv hidle).effect (.subscribe 0 hlt))
  | writeBacklog c q e rest done hpc => exact h
  | endBacklog c q done hpc => exact h
  | writeTaken c q e hpc => exact h
  | take c q e queue hpc hitems => exact pubInv_take h hitems
  | takeNone c q queue hpc hitems => exact pubInv_take h hitems
  | drop c q hq => exact h
  | unsubscribe c q hidle hpc =>
      show PubInv (s.run.unsubscribe q) s.pub
      rw [hidle]
      exact .idle ((h.run_inv hidle).effect (.unsubscribe q))

theorem pubInv_invariant : system.Invariant (fun s => PubInv s.run s.pub) := by
  refine TSys.Inductive.invariant ⟨?_, ?_⟩
  · rintro s ⟨⟨id, cmdline, workload, now, hrun⟩, hpub, -⟩
    rw [hrun, hpub]
    exact .idle (Run.Inv.new id cmdline workload now)
  · exact fun s act s' h hstep => pubInv_move h (step_move h hstep)

/-- Whenever the lock is free, the run satisfies the invariant of whole operations. -/
theorem run_inv_of_idle {s : StreamState} (h : system.Reachable s) (hidle : s.pub = .idle) :
    s.run.Inv := (pubInv_invariant s h).run_inv hidle

/-! ## Connections -/

/-- Connections have queues of their own, all of them created by `subscribe`. -/
structure QueuesInv (s : StreamState) : Prop where
  created : ∀ c q, (s.clients c).pc.queue? = some q → q < s.run.nextQueue
  distinct : ∀ c c' q, (s.clients c).pc.queue? = some q → (s.clients c').pc.queue? = some q →
    c = c'

theorem QueuesInv.ne_of_clients {s : StreamState} (h : s.QueuesInv) {c c' : ClientId}
    {q q' : QueueId} (hne : c ≠ c') (hq : (s.clients c).pc.queue? = some q)
    (hq' : (s.clients c').pc.queue? = some q') : q ≠ q' := by
  rintro rfl
  exact hne (h.distinct c c' q hq hq')

/-- A step that gives no handler another queue. -/
theorem QueuesInv.of_sub {s s' : StreamState} (h : s.QueuesInv)
    (hnext : s'.run.nextQueue = s.run.nextQueue)
    (hsub : ∀ c q, (s'.clients c).pc.queue? = some q → (s.clients c).pc.queue? = some q) :
    s'.QueuesInv where
  created := fun c q hq => hnext ▸ h.created c q (hsub c q hq)
  distinct := fun c c' q hq hq' => h.distinct c c' q (hsub c q hq) (hsub c' q hq')

theorem QueuesInv.setClient {s : StreamState} (h : s.QueuesInv) (run : Run) (c : ClientId)
    (client : Client) (hnext : run.nextQueue = s.run.nextQueue)
    (hsub : ∀ q, client.pc.queue? = some q → (s.clients c).pc.queue? = some q) :
    ({ s with run }.setClient c client).QueuesInv := by
  refine h.of_sub hnext ?_
  intro j q hq
  by_cases hj : j = c
  · subst hj
    rw [setClient_self] at hq
    exact hsub q hq
  · rw [setClient_of_ne _ _ hj] at hq
    exact hq

theorem queuesInv_move {s s' : StreamState} {act : StreamAct} (h : s.QueuesInv)
    (hmove : Move s act s') : s'.QueuesInv := by
  cases hmove with
  | publish _ run pub hpub _ => exact h.of_sub hpub.nextQueue (fun _ _ hq => hq)
  | stay _ => exact h
  | subscribe c hidle hpc hlt =>
      -- the new queue is none of those already given out
      have hother : ∀ j q, j ≠ c → (s.clients j).pc.queue? = some q → q ≠ s.run.nextQueue :=
        fun j q _ hq => Nat.ne_of_lt (h.created j q hq)
      refine ⟨?_, ?_⟩
      · intro j q hq
        by_cases hj : j = c
        · subst hj
          rw [setClient_self] at hq
          cases hq
          exact Nat.lt_succ_self _
        · rw [setClient_of_ne _ _ hj] at hq
          exact Nat.lt_succ_of_lt (h.created j q hq)
      · intro j j' q hq hq'
        by_cases hj : j = c <;> by_cases hj' : j' = c
        · rw [hj, hj']
        · rw [hj, setClient_self] at hq
          rw [setClient_of_ne _ _ hj'] at hq'
          cases hq
          exact absurd rfl (hother j' _ hj' hq')
        · rw [setClient_of_ne _ _ hj] at hq
          rw [hj', setClient_self] at hq'
          cases hq'
          exact absurd rfl (hother j _ hj hq)
        · rw [setClient_of_ne _ _ hj] at hq
          rw [setClient_of_ne _ _ hj'] at hq'
          exact h.distinct j j' q hq hq'
  | writeBacklog c q e rest done hpc =>
      exact h.setClient s.run c _ rfl (fun _ hq => hpc ▸ hq)
  | endBacklog c q done hpc =>
      refine h.setClient s.run c _ rfl ?_
      intro q' hq'
      rw [hpc]
      cases done <;> exact hq'
  | writeTaken c q e hpc =>
      refine h.setClient s.run c _ rfl ?_
      intro q' hq'
      rw [hpc]
      cases hend : e.isEnd with
      | true =>
          rw [hend] at hq'
          exact hq'
      | false =>
          rw [hend] at hq'
          exact hq'
  | take c q e queue hpc _ => exact h.setClient _ c _ rfl (fun _ hq => hpc ▸ hq)
  | takeNone c q queue hpc _ => exact h.setClient _ c _ rfl (fun _ hq => hpc ▸ hq)
  | drop c q hq => exact h.setClient s.run c _ rfl (fun _ hq' => by rw [hq]; exact hq')
  | unsubscribe c q hidle hpc => exact h.setClient _ c _ rfl nofun

/-- Both invariants of the whole system. -/
structure Inv (s : StreamState) : Prop where
  pub : PubInv s.run s.pub
  queues : s.QueuesInv

theorem inv_invariant : system.Invariant Inv := by
  refine TSys.Inductive.invariant ⟨?_, ?_⟩
  · intro s hinit
    refine ⟨pubInv_invariant s (.init hinit), ?_, ?_⟩
    · intro c q hq
      rw [hinit.2.2 c] at hq
      cases hq
    · intro c c' q hq
      rw [hinit.2.2 c] at hq
      cases hq
  · intro s act s' h hstep
    have hmove := step_move h.pub hstep
    exact ⟨pubInv_move h.pub hmove, queuesInv_move h.queues hmove⟩

end StreamState

end SrxProbe.Dashboard
