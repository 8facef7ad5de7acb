import Mathlib.Data.List.Nodup
import SrxProbe.Dashboard.RunSpec
import SrxProbe.Lib.TSys

/-!
# The invariants of a run

Every operation of a `Run`, in any order, keeps four independent invariants: of
the event log and its ring, of the retained output, of the subscriber set, and
of the terminal latch. None of them depends on what a subscriber does with its
queue, and none on whether the history write inside `finish` succeeds.
-/

namespace SrxProbe.Dashboard

open SrxProbe.Lib

/-! ## Operations and runs -/

/-- One operation on a run. `finish` carries the clock reading and what
`record_batch` returned or raised; `get` is a subscriber's `q.get`. -/
inductive Op
  | emit (line : PyStr)
  | finish (rc : Int) (now : Time) (recorded : Except PyErr BatchRef)
  | subscribe (lastId : Nat)
  | unsubscribe (q : QueueId)
  | get (q : QueueId)

namespace Run

/-- Execute one operation. A refused `subscribe` and a `get` on an empty queue
raise in the caller and leave the run as it is. -/
def exec (r : Run) : Op → Except PyErr Run
  | .emit line => r.emit line
  | .finish rc now recorded => r.finish rc now recorded
  | .subscribe lastId =>
      match r.subscribe lastId with
      | .ok (_, r') => .ok r'
      | .error _ => .ok r
  | .unsubscribe q => .ok (r.unsubscribe q)
  | .get q =>
      match r.get q with
      | some (_, r') => .ok r'
      | none => .ok r

/-- Execute a list of operations; an exception that leaves the run's own code
ends it. -/
def execAll (r : Run) (ops : List Op) : Except PyErr Run := ops.foldlM exec r

/-- The transition system of one run object. -/
def system : TSys Run Op where
  init r := ∃ id cmdline workload now, r = Run.new id cmdline workload now
  step r op r' := r.exec op = .ok r'

theorem execAll_iff_run {r r' : Run} {ops : List Op} :
    r.execAll ops = .ok r' ↔ system.Run r ops r' := by
  constructor
  · intro h
    induction ops generalizing r with
    | nil =>
        cases h
        exact .nil
    | cons op ops ih =>
        simp only [execAll, List.foldlM_cons] at h
        cases hop : r.exec op with
        | error err =>
            rw [hop] at h
            cases h
        | ok m =>
            rw [hop] at h
            exact .cons hop (ih h)
  · intro h
    induction h with
    | nil => rfl
    | cons hstep _ ih =>
        simp only [execAll, List.foldlM_cons]
        rw [show _ = _ from hstep]
        exact ih

/-- What one operation can do, with what it has checked. -/
inductive Effect (r : Run) : Op → Run → Prop
  /-- `emit` or `finish` after the run has ended -/
  | late {op} : r.terminal.isSome = true → Effect r op r
  | emit line : r.terminal.isSome = false → Effect r (.emit line) (r.afterEmit line)
  | finish rc now recorded : r.terminal.isSome = false →
      Effect r (.finish rc now recorded) (r.afterFinish rc now recorded)
  /-- `subscribe` beyond `MAX_SUBSCRIBERS` -/
  | refused lastId : Effect r (.subscribe lastId) r
  | subscribe lastId : r.subscribers.length < maxSubscribers →
      Effect r (.subscribe lastId) r.afterSubscribe
  | unsubscribe q : Effect r (.unsubscribe q) (r.unsubscribe q)
  /-- `q.get` on an empty queue -/
  | empty q : Effect r (.get q) r
  | get q item (queue : EventQueue) : (r.queues q).items = item :: queue.items →
      queue.history = (r.queues q).history →
      Effect r (.get q) { r with queues := update r.queues q queue }

/-- No operation raises out of the run's own code. -/
theorem exec_total (r : Run) (op : Op) (hnodup : r.subscribers.Nodup) :
    ∃ r', r.exec op = .ok r' ∧ Effect r op r' := by
  cases op with
  | emit line =>
      refine ⟨_, emit_eq r line hnodup, ?_⟩
      cases hterm : r.terminal.isSome with
      | true => exact .late hterm
      | false => exact .emit line hterm
  | finish rc now recorded =>
      refine ⟨_, finish_eq r rc now recorded hnodup, ?_⟩
      cases hterm : r.terminal.isSome with
      | true => exact .late hterm
      | false => exact .finish rc now recorded hterm
  | subscribe lastId =>
      by_cases hlt : r.subscribers.length < maxSubscribers
      · refine ⟨r.afterSubscribe, ?_, .subscribe lastId hlt⟩
        simp only [exec, subscribe_of_lt lastId hlt]
      · refine ⟨r, ?_, .refused lastId⟩
        simp only [exec, Run.subscribe, if_pos (Nat.le_of_not_lt hlt)]
  | unsubscribe q => exact ⟨_, rfl, .unsubscribe q⟩
  | get q =>
      cases hget : r.get q with
      | none => exact ⟨r, by simp only [exec, hget], .empty q⟩
      | some p =>
          obtain ⟨queue, hitems, hhist, heq⟩ := get_some (show r.get q = some (p.1, p.2) from hget)
          refine ⟨p.2, by simp only [exec, hget], ?_⟩
          rw [heq]
          exact .get q p.1 queue hitems hhist

theorem exec_effect {r r' : Run} {op : Op} (hnodup : r.subscribers.Nodup)
    (hop : r.exec op = .ok r') : Effect r op r' := by
  obtain ⟨m, hm, heffect⟩ := exec_total r op hnodup
  rw [hm, Except.ok.injEq] at hop
  exact hop ▸ heffect

/-! ## The event log -/

/-- The log is numbered from 1, holds no `reset`, and its tail is retained. -/
structure LogInv (r : Run) : Prop where
  sequence : r.sequence = r.published.length
  numbered : r.published.map Event.id = List.range' 1 r.published.length
  retained : r.events.Holds r.published
  unreset : ∀ e ∈ r.published, e.isReset = false

theorem LogInv.afterPublish {r : Run} {data : EventData} (h : r.LogInv)
    (hdata : (⟨r.sequence + 1, data⟩ : Event).isReset = false) :
    (r.afterPublish data).LogInv where
  sequence := by
    simp only [Run.afterPublish, List.length_append, List.length_singleton, h.sequence]
  numbered := by
    simp only [Run.afterPublish, List.map_append, List.map_singleton, List.length_append,
      List.length_singleton, h.numbered, h.sequence, List.range'_concat]
    congr 2
    omega
  retained := h.retained.push _
  unreset := by
    intro e he
    rcases List.mem_append.mp he with he | he
    · exact h.unreset e he
    · rw [List.mem_singleton] at he
      exact he ▸ hdata

/-- Only the log and its ring matter to `LogInv`. -/
theorem LogInv.of_eq {r r' : Run} (h : r.LogInv) (hseq : r'.sequence = r.sequence)
    (hev : r'.events = r.events) (hpub : r'.published = r.published) : r'.LogInv where
  sequence := by rw [hseq, hpub, h.sequence]
  numbered := by rw [hpub, h.numbered]
  retained := by rw [hev, hpub]; exact h.retained
  unreset := by rw [hpub]; exact h.unreset

/-- The `i`-th event of the log has id `i + 1`. -/
theorem LogInv.id_getElem? {r : Run} (h : r.LogInv) {i : Nat} {e : Event}
    (he : r.published[i]? = some e) : e.id = i + 1 := by
  have hmap : (r.published.map Event.id)[i]? = some e.id := by
    rw [List.getElem?_map, he]
    rfl
  have hi : i < r.published.length := (List.getElem?_eq_some_iff.mp he).1
  rw [h.numbered, List.getElem?_range' hi, Option.some.injEq] at hmap
  omega

/-- The retained events have consecutive ids, ending at `sequence`. -/
theorem LogInv.retained_ids {r : Run} (h : r.LogInv) :
    r.events.items.map Event.id =
      List.range' (r.sequence + 1 - r.events.items.length) r.events.items.length := by
  have hlen := h.retained.length
  rw [h.retained, List.rtake, List.map_drop, h.numbered, List.drop_range', h.sequence,
    List.length_drop]
  congr 1
  omega

/-! ## The retained output -/

/-- `lines` is the tail of the lines of the `log` events, each clipped. -/
structure OutputInv (r : Run) : Prop where
  tail : r.lines.Holds (r.published.filterMap Event.line?)
  clipped : ∀ line ∈ r.published.filterMap Event.line?, line.length ≤ maxLineChars

theorem OutputInv.of_eq {r r' : Run} (h : r.OutputInv) (hlines : r'.lines = r.lines)
    (hpub : r'.published = r.published) : r'.OutputInv where
  tail := by rw [hlines, hpub]; exact h.tail
  clipped := by rw [hpub]; exact h.clipped

theorem OutputInv.afterEmit {r : Run} (h : r.OutputInv) (line : PyStr) :
    (r.afterEmit line).OutputInv where
  tail := by
    simp only [Run.afterEmit, Run.afterPublish, List.filterMap_append, List.filterMap_cons,
      List.filterMap_nil, Event.line?]
    exact h.tail.push _
  clipped := by
    intro l hl
    simp only [Run.afterEmit, Run.afterPublish, List.filterMap_append, List.filterMap_cons,
      List.filterMap_nil, Event.line?, List.mem_append, List.mem_singleton] at hl
    rcases hl with hl | rfl
    · exact h.clipped l hl
    · exact List.length_take_le _ _

theorem OutputInv.afterFinish {r : Run} (h : r.OutputInv) (rc : Int) (now : Time)
    (recorded : Except PyErr BatchRef) : (r.afterFinish rc now recorded).OutputInv where
  tail := by
    simp only [Run.afterFinish, Run.afterPublish, List.filterMap_append, List.filterMap_cons,
      List.filterMap_nil, Event.line?, List.append_nil]
    exact h.tail
  clipped := by
    simp only [Run.afterFinish, Run.afterPublish, List.filterMap_append, List.filterMap_cons,
      List.filterMap_nil, Event.line?, List.append_nil]
    exact h.clipped

/-! ## The subscriber set -/

/-- Subscribers are distinct queues that `subscribe` has created, at most
`MAX_SUBSCRIBERS` of them. -/
structure SubsInv (r : Run) : Prop where
  nodup : r.subscribers.Nodup
  created : ∀ q ∈ r.subscribers, q < r.nextQueue
  limit : r.subscribers.length ≤ maxSubscribers

/-- Dropping subscribers keeps the invariant. -/
theorem SubsInv.sublist {r r' : Run} (h : r.SubsInv)
    (hsubs : r'.subscribers.Sublist r.subscribers) (hnext : r'.nextQueue = r.nextQueue) :
    r'.SubsInv where
  nodup := hsubs.nodup h.nodup
  created := by
    intro q hq
    rw [hnext]
    exact h.created q (hsubs.subset hq)
  limit := Nat.le_trans hsubs.length_le h.limit

theorem SubsInv.afterSubscribe {r : Run} (h : r.SubsInv)
    (hlt : r.subscribers.length < maxSubscribers) : r.afterSubscribe.SubsInv := by
  by_cases hdone : r.terminal.isSome
  · have hsubs : r.afterSubscribe.subscribers = r.subscribers := by
      simp [Run.afterSubscribe, hdone]
    refine ⟨hsubs ▸ h.nodup, ?_, hsubs ▸ h.limit⟩
    intro q hq
    exact Nat.lt_succ_of_lt (h.created q (hsubs ▸ hq))
  · have hsubs : r.afterSubscribe.subscribers = r.subscribers ++ [r.nextQueue] := by
      simp [Run.afterSubscribe, hdone]
    have hnew : r.nextQueue ∉ r.subscribers := fun hmem =>
      Nat.lt_irrefl _ (h.created _ hmem)
    refine ⟨?_, ?_, ?_⟩
    · rw [hsubs, List.nodup_append]
      refine ⟨h.nodup, List.nodup_singleton _, ?_⟩
      intro q hq q' hq' heq
      rw [List.mem_singleton] at hq'
      exact hnew (hq' ▸ heq ▸ hq)
    · intro q hq
      rw [hsubs] at hq
      rcases List.mem_append.mp hq with hq | hq
      · exact Nat.lt_succ_of_lt (h.created q hq)
      · rw [List.mem_singleton] at hq
        exact hq ▸ Nat.lt_succ_self _
    · rw [hsubs, List.length_append, List.length_singleton]
      exact hlt

/-! ## The terminal latch -/

/-- A run that has not ended: nothing terminal is set or published. -/
structure Active (r : Run) : Prop where
  terminal : r.terminal = none
  ended : r.ended = none
  returncode : r.returncode = none
  unended : ∀ e ∈ r.published, e.isEnd = false

/-- A run that ended with `e`: the last event of the log and the only `end`. -/
structure Ended (r : Run) (e : Event) : Prop where
  terminal : r.terminal = some e
  ended : r.ended.isSome = true
  returncode : r.returncode.isSome = true
  isEnd : e.isEnd = true
  last : ∃ past, r.published = past ++ [e] ∧ ∀ e' ∈ past, e'.isEnd = false

/-- The latch: `terminal`, `ended` and `returncode` are set together. -/
def Latch (r : Run) : Prop := r.Active ∨ ∃ e, r.Ended e

theorem Latch.of_eq {r r' : Run} (h : r.Latch) (hterm : r'.terminal = r.terminal)
    (hended : r'.ended = r.ended) (hrc : r'.returncode = r.returncode)
    (hpub : r'.published = r.published) : r'.Latch := by
  rcases h with h | ⟨e, h⟩
  · exact .inl ⟨hterm ▸ h.terminal, hended ▸ h.ended, hrc ▸ h.returncode, hpub ▸ h.unended⟩
  · exact .inr ⟨e, hterm ▸ h.terminal, hended ▸ h.ended, hrc ▸ h.returncode, h.isEnd,
      hpub ▸ h.last⟩

theorem Latch.active {r : Run} (h : r.Latch) (hterm : r.terminal.isSome = false) :
    r.Active := by
  rcases h with h | ⟨e, h⟩
  · exact h
  · rw [h.terminal] at hterm
    cases hterm

theorem Latch.ended {r : Run} (h : r.Latch) {e : Event} (hterm : r.terminal = some e) :
    r.Ended e := by
  rcases h with h | ⟨e', h⟩
  · rw [h.terminal] at hterm
    cases hterm
  · have heq := h.terminal.symm.trans hterm
    cases heq
    exact h

theorem Active.afterEmit {r : Run} (h : r.Active) (line : PyStr) : (r.afterEmit line).Active where
  terminal := h.terminal
  ended := h.ended
  returncode := h.returncode
  unended := by
    intro e he
    rcases List.mem_append.mp he with he | he
    · exact h.unended e he
    · rw [List.mem_singleton] at he
      rw [he]
      rfl

theorem Active.afterFinish {r : Run} (h : r.Active) (rc : Int) (now : Time)
    (recorded : Except PyErr BatchRef) :
    (r.afterFinish rc now recorded).Ended
      ⟨r.sequence + 1, .end (r.endPayload rc now recorded)⟩ where
  terminal := rfl
  ended := rfl
  returncode := rfl
  isEnd := rfl
  last := ⟨r.published, rfl, h.unended⟩

/-- The last event of the log is the terminal one, and is retained. -/
theorem Ended.retained {r : Run} {e : Event} (h : r.Ended e) (hlog : r.LogInv) :
    r.events.items.getLast? = some e ∧ e.id = r.sequence := by
  obtain ⟨past, hpub, -⟩ := h.last
  constructor
  · have hcap : r.events.items = (past ++ [e]).rtake maxLines := hpub ▸ hlog.retained
    obtain ⟨n, hn⟩ : ∃ n, maxLines = n + 1 := ⟨maxLines - 1, by have := maxLines_pos; omega⟩
    rw [hcap, hn, List.rtake_concat_succ, List.getLast?_concat]
  · have hget : r.published[past.length]? = some e := by
      rw [hpub, List.getElem?_append_right (Nat.le_refl _), Nat.sub_self]
      rfl
    rw [hlog.id_getElem? hget, hlog.sequence, hpub, List.length_append, List.length_singleton]

/-! ## All four together -/

/-- What every reachable state of a run satisfies. -/
structure Inv (r : Run) : Prop where
  log : r.LogInv
  output : r.OutputInv
  subs : r.SubsInv
  latch : r.Latch

theorem Inv.new (id cmdline workload : PyStr) (now : Time) :
    (Run.new id cmdline workload now).Inv where
  log := ⟨rfl, rfl, .empty, by simp [Run.new]⟩
  output := ⟨.empty, by simp [Run.new]⟩
  subs := ⟨List.nodup_nil, by simp [Run.new], Nat.zero_le _⟩
  latch := .inl ⟨rfl, rfl, rfl, by simp [Run.new]⟩

/-- Each operation keeps `Inv`. -/
theorem Inv.effect {r r' : Run} {op : Op} (h : r.Inv) (heffect : Effect r op r') : r'.Inv := by
  cases heffect with
  | late hterm => exact h
  | emit line hterm =>
      exact ⟨LogInv.afterPublish (h.log.of_eq rfl rfl rfl) rfl, h.output.afterEmit line,
        h.subs.sublist List.filter_sublist rfl,
        .inl ((h.latch.active hterm).afterEmit line)⟩
  | finish rc now recorded hterm =>
      have hlog : ({ r with returncode := some rc, ended := some now } : Run).LogInv :=
        h.log.of_eq rfl rfl rfl
      have hend : ∀ payload n, (⟨n, .end payload⟩ : Event).isReset = false := fun _ _ => rfl
      exact ⟨(hlog.afterPublish (hend (r.endPayload rc now recorded) _)).of_eq rfl rfl rfl,
        h.output.afterFinish rc now recorded, h.subs.sublist List.filter_sublist rfl,
        .inr ⟨_, (h.latch.active hterm).afterFinish rc now recorded⟩⟩
  | refused lastId => exact h
  | subscribe lastId hlt =>
      exact ⟨h.log.of_eq rfl rfl rfl, h.output.of_eq rfl rfl, h.subs.afterSubscribe hlt,
        h.latch.of_eq rfl rfl rfl rfl⟩
  | unsubscribe q =>
      exact ⟨h.log.of_eq rfl rfl rfl, h.output.of_eq rfl rfl,
        h.subs.sublist List.erase_sublist rfl, h.latch.of_eq rfl rfl rfl rfl⟩
  | empty q => exact h
  | get q item queue hitems hhist =>
      exact ⟨h.log.of_eq rfl rfl rfl, h.output.of_eq rfl rfl,
        h.subs.sublist (List.Sublist.refl _) rfl, h.latch.of_eq rfl rfl rfl rfl⟩

theorem Inv.exec {r : Run} (h : r.Inv) (op : Op) : ∃ r', r.exec op = .ok r' ∧ r'.Inv := by
  obtain ⟨r', hop, heffect⟩ := exec_total r op h.subs.nodup
  exact ⟨r', hop, h.effect heffect⟩

theorem Inv.exec_ok {r r' : Run} (h : r.Inv) {op : Op} (hop : r.exec op = .ok r') : r'.Inv :=
  h.effect (exec_effect h.subs.nodup hop)

theorem inv_inductive : system.Inductive Inv where
  init := by
    rintro r ⟨id, cmdline, workload, now, rfl⟩
    exact Inv.new id cmdline workload now
  step := fun r op r' h hstep => h.exec_ok hstep

theorem inv_invariant : system.Invariant Inv := inv_inductive.invariant

theorem Inv.execAll {r : Run} (h : r.Inv) (ops : List Op) :
    ∃ r', r.execAll ops = .ok r' ∧ r'.Inv := by
  induction ops generalizing r with
  | nil => exact ⟨r, rfl, h⟩
  | cons op ops ih =>
      obtain ⟨m, hm, hinv⟩ := h.exec op
      obtain ⟨r', hr', hinv'⟩ := ih hinv
      refine ⟨r', ?_, hinv'⟩
      simp only [Run.execAll, List.foldlM_cons, hm]
      exact hr'

end Run

end SrxProbe.Dashboard
