import SrxProbe.Dashboard.StreamInv

/-!
# Whole operations as runs of small steps

`emit` and `finish` as one step of `Run` are what the lock holder does when no
handler comes in between, whatever order it takes the subscribers in. So the
small-step system has every behaviour of the system of whole operations.
-/

namespace SrxProbe.Dashboard

open SrxProbe.Lib

namespace StreamState

/-- The lock holder, `n` steps on end. -/
def publisherTurns (n : Nat) : List StreamAct := List.replicate n .publisher

theorem publisherTurns_add (m n : Nat) :
    publisherTurns (m + n) = publisherTurns m ++ publisherTurns n :=
  List.replicate_add m n _

/-- The eviction of a full queue, from the first `get_nowait` to the marker. -/
theorem run_evict (s : StreamState) (event : Event) (q : QueueId) (discarded : Bool)
    (todo : List QueueId) (queue : EventQueue) (hpub : s.pub = .draining event q discarded todo)
    (hput : (s.run.queues q).drain.putNowait none = some queue) :
    ∃ n, system.Run s (publisherTurns n)
      { s with run := s.run.setQueue q queue, pub := .offering event todo } := by
  generalize hitems : (s.run.queues q).items = items
  induction items generalizing s discarded with
  | nil =>
      -- `queue.Empty`, then the marker
      have hget : (s.run.queues q).getNowait = none := Fifo.getNowait_none.mpr hitems
      rw [Fifo.drain_of_empty hget] at hput
      have hempty : s.publisherStep = some { s with pub := .marking event q todo } := by
        rw [publisherStep]
        simp only [hpub, hget]
      refine ⟨2, .cons hempty (.cons ?_ .nil)⟩
      show publisherStep { s with pub := .marking event q todo } = _
      rw [publisherStep]
      simp only [hput]
      rfl
  | cons item rest ih =>
      obtain ⟨queue', hget, hrest⟩ := Fifo.getNowait_of_cons hitems
      have hqueue : (s.run.setQueue q queue').queues q = queue' := update_self _ _ _
      rw [Fifo.drain_of_getNowait hget] at hput
      obtain ⟨n, hrun⟩ := ih
        { s with run := s.run.setQueue q queue', pub := .draining event q true todo } true rfl
        (by rw [← hput]; exact congrArg (fun queue => queue.drain.putNowait none) hqueue)
        (by rw [← hrest]; exact congrArg Fifo.items hqueue)
      have hdiscard : s.publisherStep = some { s with
          run := s.run.setQueue q queue'
          pub := .draining event q true todo } := by
        rw [publisherStep]
        simp only [hpub, hget]
        rfl
      have hset : (s.run.setQueue q queue').setQueue q queue = s.run.setQueue q queue := by
        simp only [Run.setQueue, update_update]
      simp only [hset] at hrun
      exact ⟨n + 1, .cons hdiscard hrun⟩

/-- One turn of the loop over the subscribers. -/
theorem run_offer (s : StreamState) (event : Event) (q : QueueId) (todo : List QueueId) (r : Run)
    (hpub : s.pub = .offering event (q :: todo)) (hoffer : s.run.offer event q = .ok r) :
    ∃ n, system.Run s (publisherTurns n) { s with run := r, pub := .offering event todo } := by
  unfold Run.offer at hoffer
  split at hoffer
  · rename_i queue hput
    cases hoffer
    refine ⟨1, .cons ?_ .nil⟩
    show s.publisherStep = _
    rw [publisherStep]
    simp only [hpub, hput]
  · rename_i hfull
    simp only [Run.evict, bind, Except.bind] at hoffer
    split at hoffer
    · cases hoffer
    · rename_i subscribers hremove
      split at hoffer
      · rename_i queue hput
        cases hoffer
        obtain ⟨n, hrun⟩ := run_evict
          { s with run := { s.run with subscribers }, pub := .draining event q false todo }
          event q false todo queue rfl hput
        refine ⟨n + 1, .cons ?_ hrun⟩
        show s.publisherStep = _
        rw [publisherStep]
        simp only [hpub, hfull, hremove]
      · cases hoffer

/-- The loop of `_publish`, to the release of the lock. -/
theorem run_publish (s : StreamState) (event : Event) (todo : List QueueId) (r : Run)
    (hpub : s.pub = .offering event todo)
    (hloop : todo.foldlM (fun r q => r.offer event q) s.run = .ok r) :
    ∃ n, system.Run s (publisherTurns n) { s with
      run := { r with terminal := if event.isEnd then some event else r.terminal }
      pub := .idle } := by
  induction todo generalizing s with
  | nil =>
      cases hloop
      refine ⟨1, .cons ?_ .nil⟩
      show s.publisherStep = _
      rw [publisherStep]
      simp only [hpub]
  | cons q todo ih =>
      rw [List.foldlM_cons] at hloop
      cases hoffer : s.run.offer event q with
      | error err =>
          rw [hoffer] at hloop
          cases hloop
      | ok m =>
          rw [hoffer] at hloop
          obtain ⟨n, hfirst⟩ := run_offer s event q todo m hpub hoffer
          obtain ⟨n', hrest⟩ := ih { s with run := m, pub := .offering event todo } rfl hloop
          exact ⟨n + n', publisherTurns_add n n' ▸ hfirst.append hrest⟩

/-- `emit` and `finish` are what comes before the loop, the loop, and the latch. -/
theorem exec_of_loop {r r' : Run} {op : Op} {event : Event} {result : Except PyErr Run}
    (hbegin : r.beginPublish op = some (event, r'))
    (hloop : r'.subscribers.foldlM (fun r q => r.offer event q) r' = result) :
    r.exec op = do
      let r ← result
      return { r with terminal := if event.isEnd then some event else r.terminal } := by
  cases op with
  | emit line =>
      simp only [Run.beginPublish] at hbegin
      split at hbegin
      · cases hbegin
      · rename_i hterm
        cases hbegin
        simp only at hloop
        simp only [Run.exec, Run.emit, if_neg hterm, Run.publish, Run.record, hloop]
        cases result <;> rfl
  | finish rc now recorded =>
      simp only [Run.beginPublish] at hbegin
      split at hbegin
      · cases hbegin
      · rename_i hterm
        cases hbegin
        simp only at hloop
        simp only [Run.exec, Run.finish, if_neg hterm, Run.publish, Run.record, hloop]
        cases result <;> rfl
  | subscribe lastId => cases hbegin
  | unsubscribe q => cases hbegin
  | get q => cases hbegin

/-- **`emit` and `finish` without interleaving.** Taking the subscribers in any
order, the lock holder does what the operation does as one step. -/
theorem run_operation {s : StreamState} {op : Op} {order : List QueueId} {r : Run}
    (hop : (∃ line, op = .emit line) ∨ ∃ rc now recorded, op = .finish rc now recorded)
    (hidle : s.pub = .idle) (hnodup : s.run.subscribers.Nodup)
    (horder : order.Perm s.run.subscribers) (hexec : s.run.exec op = .ok r) :
    ∃ n, system.Run s (.begin op order :: publisherTurns n) { s with run := r } := by
  have hguard : s.pub = .idle ∧ order.Perm s.run.subscribers := ⟨hidle, horder⟩
  cases hbegin : s.run.beginPublish op with
  | none =>
      -- too late: nothing is published
      have hsame : r = s.run := by
        rcases hop with ⟨line, rfl⟩ | ⟨rc, now, recorded, rfl⟩
        · simp only [Run.beginPublish, ite_eq_left_iff, reduceCtorEq, imp_false, not_not] at hbegin
          simp only [Run.exec, Run.emit, if_pos hbegin, Except.ok.injEq] at hexec
          exact hexec.symm
        · simp only [Run.beginPublish, ite_eq_left_iff, reduceCtorEq, imp_false, not_not] at hbegin
          simp only [Run.exec, Run.finish, if_pos hbegin, Except.ok.injEq] at hexec
          exact hexec.symm
      subst hsame
      refine ⟨0, .cons ?_ .nil⟩
      show s.step (.begin op order) = some s
      simp only [step, if_pos hguard, hbegin]
  | some p =>
      obtain ⟨event, r'⟩ := p
      have hbegun := Run.beginPublish_some hbegin
      have hperm := Run.offerAll_perm event r' (hbegun.subscribers ▸ hnodup)
        (hbegun.subscribers ▸ horder)
      cases hloop : order.foldlM (fun r q => r.offer event q) r' with
      | error err =>
          rw [exec_of_loop hbegin (hperm.symm.trans hloop)] at hexec
          cases hexec
      | ok m =>
          rw [exec_of_loop hbegin (hperm.symm.trans hloop)] at hexec
          cases hexec
          obtain ⟨n, hrun⟩ :=
            run_publish { s with run := r', pub := .offering event order } event order m rfl hloop
          have hfirst : s.step (.begin op order) =
              some { s with run := r', pub := .offering event order } := by
            simp only [step, if_pos hguard, hbegin]
          simp only [hidle]
          exact ⟨n, .cons hfirst hrun⟩

end StreamState

end SrxProbe.Dashboard
