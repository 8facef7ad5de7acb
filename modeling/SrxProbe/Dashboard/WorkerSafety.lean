import SrxProbe.Dashboard.WorkerInv

/-!
# Every path of the worker ends

The worker has a next step for whatever it is answered, and each of its steps but reading
a line brings it nearer to `finish`. With the invariant this is the contract of a run that
can be stopped at any time.
-/

namespace SrxProbe.Dashboard

open SrxProbe.Lib

/-! ## What is left -/

/-- How many steps of its own a call of `kill_run` has left at most, with the one that
returns. -/
def KillPc.left : KillPc → Nat
  | .entry => 7
  | .polling => 6
  | .terminating => 5
  | .checking => 4
  | .killing => 3
  | .failing _ => 2
  | .returned _ => 1
  | .raised => 1

/-- How many steps the worker has left at most, if it reads no more line. -/
def WorkerPc.left : WorkerPc → Nat
  | .entering => 15
  | .greeting => 14
  | .relaying _ => 14
  | .reading => 13
  | .waiting => 12
  | .handling .. => 11
  | .polling _ => 10
  | .killing call _ => call.left + 2
  | .closing _ => 2
  | .unstarted _ => 2
  | .finishing _ => 1
  | .done => 0

namespace WorkerState

/-! ## No path gets stuck -/

/-- `kill_run` has a next step until it returns or raises, whatever the outcome of
the call it makes. -/
theorem killStep_total {r : Run} (hinv : r.Inv) (pc : KillPc) (reply : Except Raised Bool)
    (hreturned : ∀ value, pc ≠ .returned value) (hraised : pc ≠ .raised) :
    ∃ result, killStep r pc reply = some result := by
  cases pc with
  | entry =>
      simp only [killStep]
      split
      · exact ⟨_, rfl⟩
      · split <;> exact ⟨_, rfl⟩
  | failing e =>
      simp only [killStep, Run.emit_eq r _ hinv.subs.nodup]
      exact ⟨_, rfl⟩
  | returned value => exact absurd rfl (hreturned value)
  | raised => exact absurd rfl hraised
  | polling => simp only [killStep]; split <;> exact ⟨_, rfl⟩
  | terminating => simp only [killStep]; split <;> exact ⟨_, rfl⟩
  | checking => simp only [killStep]; split <;> exact ⟨_, rfl⟩
  | killing => simp only [killStep]; split <;> exact ⟨_, rfl⟩

/-- What the worker does next, with whatever answer it gets. -/
def next (s : WorkerState) (act : WorkerAct) : Bool :=
  match s.worker, act with
  | .entering, .enter _ => true
  | .greeting, .emit => true
  | .reading, .read _ => true
  | .relaying _, .emit => true
  | .waiting, .wait _ => true
  | .handling .., .emit => true
  | .polling _, .poll _ => true
  | .killing .., .kill _ => true
  | .closing _, .close _ => true
  | .finishing _, .finish .. => true
  | .unstarted _, .emit => true
  | _, _ => false

/-- The steps of the worker. -/
def isOwn : WorkerAct → Bool
  | .killer .. => false
  | .client _ => false
  | _ => true

/-- How many steps a line that is read adds. -/
def lineSteps : WorkerAct → Nat
  | .read (.ok (_ :: _)) => 2
  | _ => 0

theorem exists_next {s : WorkerState} (hdone : s.worker ≠ .done) : ∃ act, s.next act = true := by
  cases hpc : s.worker with
  | done => exact absurd hpc hdone
  | entering => exact ⟨.enter (.ok 0), by simp only [next, hpc]⟩
  | reading => exact ⟨.read (.ok []), by simp only [next, hpc]⟩
  | waiting => exact ⟨.wait (.ok 0), by simp only [next, hpc]⟩
  | polling rc => exact ⟨.poll (.ok true), by simp only [next, hpc]⟩
  | killing call rc => exact ⟨.kill (.ok true), by simp only [next, hpc]⟩
  | closing rc => exact ⟨.close (.ok ()), by simp only [next, hpc]⟩
  | finishing rc => exact ⟨.finish 0 (.error .other), by simp only [next, hpc]⟩
  | greeting => exact ⟨.emit, by simp only [next, hpc]⟩
  | relaying line => exact ⟨.emit, by simp only [next, hpc]⟩
  | handling proc e => exact ⟨.emit, by simp only [next, hpc]⟩
  | unstarted e => exact ⟨.emit, by simp only [next, hpc]⟩

/-- A step of `kill_run` leaves it fewer. -/
theorem killStep_left {r r' : Run} {pc pc' : KillPc} {reply : Except Raised Bool}
    {signalled : Bool} (h : killStep r pc reply = some (r', pc', signalled)) :
    pc'.left < pc.left := by
  cases pc with
  | entry =>
      simp only [killStep] at h
      split at h
      · cases h
        simp [KillPc.left]
      · split at h <;> cases h <;> simp [KillPc.left]
  | failing e =>
      simp only [killStep] at h
      split at h <;> cases h
      simp [KillPc.left]
  | returned value => cases h
  | raised => cases h
  | polling => simp only [killStep] at h; split at h <;> cases h <;> simp [KillPc.left]
  | terminating => simp only [killStep] at h; split at h <;> cases h <;> simp [KillPc.left]
  | checking => simp only [killStep] at h; split at h <;> cases h <;> simp [KillPc.left]
  | killing => simp only [killStep] at h; split at h <;> cases h <;> simp [KillPc.left]

/-- An `emit` of the worker. -/
theorem emit_progress {s : WorkerState} (hinv : s.run.Inv) (line : PyStr) (pc : WorkerPc) :
    ∃ s', s.emitting line pc = some s' ∧ s'.worker = pc := by
  unfold emitting
  rw [Run.emit_eq s.run line hinv.subs.nodup]
  exact ⟨_, rfl, rfl⟩

/-- The worker goes on whatever `Popen`, a read, a wait, a poll, a signal, `close` or the
history write does, raising included, and comes nearer to its end. -/
theorem worker_progress {s : WorkerState} (h : s.Inv) {act : WorkerAct}
    (hnext : s.next act = true) :
    ∃ s', s.step act = some s' ∧ s'.worker.left < s.worker.left + lineSteps act := by
  unfold next at hnext
  cases hpc : s.worker with
  | done =>
      rw [hpc] at hnext
      cases hnext
  | entering =>
      rw [hpc] at hnext
      cases act with
      | enter popen =>
          simp only [WorkerState.step, workerStep, hpc]
          split
          · exact ⟨_, rfl, Nat.lt_add_right _ (by simp [WorkerPc.left])⟩
          · cases popen with
            | ok pid => exact ⟨_, rfl, Nat.lt_add_right _ (by simp [WorkerPc.left])⟩
            | error e => exact ⟨_, rfl, Nat.lt_add_right _ (by simp [WorkerPc.left])⟩
      | _ => cases hnext
  | greeting =>
      rw [hpc] at hnext
      cases act with
      | emit =>
          obtain ⟨s', hs', hpc'⟩ := emit_progress h.run ("$ ".toList ++ s.run.cmdline) .reading
          exact ⟨s', by simp only [WorkerState.step, workerStep, hpc, hs'],
            Nat.lt_add_right _ (by simp [hpc', WorkerPc.left])⟩
      | _ => cases hnext
  | relaying line =>
      rw [hpc] at hnext
      cases act with
      | emit =>
          obtain ⟨s', hs', hpc'⟩ := emit_progress h.run (rstripChar '\n' line) .reading
          exact ⟨s', by simp only [WorkerState.step, workerStep, hpc, hs'],
            Nat.lt_add_right _ (by simp [hpc', WorkerPc.left])⟩
      | _ => cases hnext
  | handling proc e =>
      rw [hpc] at hnext
      cases act with
      | emit =>
          obtain ⟨s', hs', hpc'⟩ := emit_progress h.run ("ERROR: ".toList ++ e.message)
            (if proc then .polling (errorRc e) else .finishing (errorRc e))
          refine ⟨s', by simp only [WorkerState.step, workerStep, hpc, hs'], ?_⟩
          rw [hpc']
          apply Nat.lt_add_right
          split <;> simp [WorkerPc.left]
      | _ => cases hnext
  | unstarted e =>
      rw [hpc] at hnext
      cases act with
      | emit =>
          obtain ⟨s', hs', hpc'⟩ := emit_progress h.run
            ("ERROR starting worker: ".toList ++ e.message) (.finishing 1)
          exact ⟨s', by simp only [WorkerState.step, workerStep, hpc, hs'],
            Nat.lt_add_right _ (by simp [hpc', WorkerPc.left])⟩
      | _ => cases hnext
  | reading =>
      rw [hpc] at hnext
      cases act with
      | read line =>
          simp only [WorkerState.step, workerStep, hpc]
          cases line with
          | error e => exact ⟨_, rfl, Nat.lt_add_right _ (by simp [WorkerPc.left])⟩
          | ok line =>
              cases line with
              | nil => exact ⟨_, rfl, Nat.lt_add_right _ (by simp [WorkerPc.left])⟩
              | cons c line => exact ⟨_, rfl, by simp [WorkerPc.left, lineSteps]⟩
      | _ => cases hnext
  | waiting =>
      rw [hpc] at hnext
      cases act with
      | wait rc =>
          simp only [WorkerState.step, workerStep, hpc]
          cases rc with
          | error e => exact ⟨_, rfl, Nat.lt_add_right _ (by simp [WorkerPc.left])⟩
          | ok rc => exact ⟨_, rfl, Nat.lt_add_right _ (by simp [WorkerPc.left])⟩
      | _ => cases hnext
  | polling rc =>
      rw [hpc] at hnext
      cases act with
      | poll alive =>
          simp only [WorkerState.step, workerStep, hpc]
          cases alive with
          | error e => exact ⟨_, rfl, Nat.lt_add_right _ (by simp [WorkerPc.left])⟩
          | ok alive =>
              cases alive <;>
                exact ⟨_, rfl, Nat.lt_add_right _ (by simp [WorkerPc.left, KillPc.left])⟩
      | _ => cases hnext
  | closing rc =>
      rw [hpc] at hnext
      cases act with
      | close result =>
          simp only [WorkerState.step, workerStep, hpc]
          exact ⟨_, rfl, Nat.lt_add_right _ (by simp [WorkerPc.left])⟩
      | _ => cases hnext
  | finishing rc =>
      rw [hpc] at hnext
      cases act with
      | finish now recorded =>
          have hfinish := Run.finish_eq s.run rc now recorded h.run.subs.nodup
          simp only [WorkerState.step, workerStep, hpc, hfinish]
          exact ⟨_, rfl, Nat.lt_add_right _ (by simp [WorkerPc.left])⟩
      | _ => cases hnext
  | killing call rc =>
      rw [hpc] at hnext
      cases act with
      | kill reply =>
          have htotal := killStep_total h.run call reply
          simp only [WorkerState.step, workerStep, hpc]
          cases call with
          | returned value =>
              exact ⟨_, rfl, Nat.lt_add_right _ (by simp [WorkerPc.left, KillPc.left])⟩
          | raised => exact ⟨_, rfl, Nat.lt_add_right _ (by simp [WorkerPc.left, KillPc.left])⟩
          | _ =>
              obtain ⟨⟨run, call', signalled⟩, hkill⟩ := htotal (by simp) (by simp)
              have hleft := killStep_left hkill
              simp only [hkill]
              exact ⟨_, rfl, by simp only [WorkerPc.left]; omega⟩
      | _ => cases hnext

/-- The calls of `kill_run` go on as well, until they return or raise. -/
theorem killer_progress {s : WorkerState} (h : s.Inv) (k : KillerId) (reply : Except Raised Bool)
    (hreturned : ∀ value, s.killers k ≠ .returned value) (hraised : s.killers k ≠ .raised) :
    ∃ s', s.step (.killer k reply) = some s' := by
  obtain ⟨⟨run, pc, signalled⟩, hkill⟩ := killStep_total h.run (s.killers k) reply hreturned hraised
  simp only [WorkerState.step, killerStep, hkill]
  exact ⟨_, rfl⟩

/-- Only the worker, where it is, makes its steps. -/
theorem next_of_own {s s' : WorkerState} {act : WorkerAct} (hown : isOwn act = true)
    (hstep : s.step act = some s') : s.next act = true := by
  cases act with
  | killer k reply => cases hown
  | client op => cases hown
  | enter popen =>
      simp only [step, workerStep] at hstep
      split at hstep
      · rename_i hpc
        simp only [next, hpc]
      · cases hstep
  | emit =>
      simp only [step, workerStep] at hstep
      split at hstep
      · rename_i hpc
        simp only [next, hpc]
      · rename_i hpc
        simp only [next, hpc]
      · rename_i hpc
        simp only [next, hpc]
      · rename_i hpc
        simp only [next, hpc]
      · cases hstep
  | read line =>
      simp only [step, workerStep] at hstep
      split at hstep
      · rename_i hpc
        simp only [next, hpc]
      · rename_i hpc
        simp only [next, hpc]
      · rename_i hpc
        simp only [next, hpc]
      · cases hstep
  | wait rc =>
      simp only [step, workerStep] at hstep
      split at hstep
      · rename_i hpc
        simp only [next, hpc]
      · rename_i hpc
        simp only [next, hpc]
      · cases hstep
  | poll alive =>
      simp only [step, workerStep] at hstep
      split at hstep
      · rename_i hpc
        simp only [next, hpc]
      · rename_i hpc _
        simp only [next, hpc]
      · cases hstep
  | kill reply =>
      simp only [step, workerStep] at hstep
      split at hstep
      · rename_i hpc
        simp only [next, hpc]
      · rename_i hpc
        simp only [next, hpc]
      · rename_i hpc
        simp only [next, hpc]
      · cases hstep
  | close result =>
      simp only [step, workerStep] at hstep
      split at hstep
      · rename_i hpc
        simp only [next, hpc]
      · cases hstep
  | finish now recorded =>
      simp only [step, workerStep] at hstep
      split at hstep
      · rename_i hpc
        simp only [next, hpc]
      · cases hstep

/-- Nobody else moves the worker. -/
theorem worker_of_others {s s' : WorkerState} {act : WorkerAct} (hother : isOwn act = false)
    (hstep : s.step act = some s') : s'.worker = s.worker ∧ s'.finishCalls = s.finishCalls := by
  cases act with
  | killer k reply =>
      simp only [step, killerStep] at hstep
      split at hstep
      · cases hstep
        exact ⟨rfl, rfl⟩
      · cases hstep
  | client op =>
      simp only [step] at hstep
      split at hstep
      · split at hstep
        · cases hstep
          exact ⟨rfl, rfl⟩
        · cases hstep
      · cases hstep
  | _ => cases hother

theorem Inv.left_step {s s' : WorkerState} {act : WorkerAct} (h : s.Inv)
    (hstep : s.step act = some s') :
    (if isOwn act then 1 else 0) + s'.worker.left ≤ s.worker.left + lineSteps act := by
  by_cases hown : isOwn act = true
  · obtain ⟨t, ht, hless⟩ := worker_progress h (next_of_own hown hstep)
    obtain rfl := Option.some.inj (hstep.symm.trans ht)
    rw [if_pos hown]
    omega
  · rw [if_neg hown, (worker_of_others (Bool.eq_false_iff.mpr hown) hstep).1]
    omega

/-- What holds in every state of a run's worker and its `kill_run` calls. -/
structure Safe (s : WorkerState) : Prop where
  popenOnce : s.popenCalls ≤ 1
  /-- a stop that comes before the worker's locked block: no process is created, and
  the run ends with `-SIGTERM` -/
  stopped : s.killedFirst = true → s.popenCalls = 0 ∧ s.run.proc = none ∧
    ∀ e, s.run.terminal = some e → e.rc? = some (-sigterm)
  /-- a stop that comes after `finish` returns `False` and signals nothing -/
  late : ∀ k ∈ s.lateKills, s.killers k = .returned false ∧ some k ∉ s.signals
  /-- `finish` is called once, by the time the worker is done, and until then the worker
  always has a next step -/
  finishOnce : s.finishCalls = if s.worker = .done then 1 else 0
  next : s.worker ≠ .done → ∃ act, s.next act = true
  /-- whatever `Popen`, a read, a wait, a poll, a signal, `close` or the history write
  does, raising included -/
  progress : ∀ act, s.next act = true → ∃ s', s.step act = some s' ∧
    s'.worker.left < s.worker.left + lineSteps act
  killers : ∀ k reply, (∀ value, s.killers k ≠ .returned value) → s.killers k ≠ .raised →
    ∃ s', s.step (.killer k reply) = some s'
  oneTerminal : (s.run.published.filter Event.isEnd).length = s.finishCalls

theorem Inv.safe {s : WorkerState} (h : s.Inv) : s.Safe where
  popenOnce := h.popenCalls
  stopped := by
    intro hfirst
    obtain ⟨hcalls, hproc, hcase⟩ := h.stopped hfirst
    refine ⟨hcalls, hproc, ?_⟩
    intro e he
    have hdone := h.ended.mpr (by rw [he]; rfl)
    rcases hcase with ⟨hpc, -⟩ | hpc | ⟨-, hrc⟩
    · rw [hpc] at hdone
      cases hdone
    · rw [hpc] at hdone
      cases hdone
    · exact hrc e he
  late := h.late
  finishOnce := h.finishCalls
  next := exists_next
  progress := fun _ => worker_progress h
  killers := killer_progress h
  oneTerminal := by
    rw [h.run.filter_isEnd, h.finishCalls]
    by_cases hdone : s.worker = .done
    · rw [if_pos hdone]
      obtain ⟨e, he⟩ := Option.isSome_iff_exists.mp (h.ended.mp hdone)
      rw [he]
      rfl
    · rw [if_neg hdone]
      cases hterm : s.run.terminal with
      | none => rfl
      | some e => exact absurd (h.ended.mpr (by rw [hterm]; rfl)) hdone

/-- **A stop that wins the race prevents execution.** In every interleaving of the
worker with any number of `kill_run` calls, whatever raises; and every path of the worker
leads to its `finish`, in a number of steps that only the lines it reads add to. -/
theorem stop_safe (s : WorkerState) (h : system.Reachable s) :
    s.Safe ∧ ∀ acts s', system.Run s acts s' →
      acts.countP isOwn + s'.worker.left ≤ s.worker.left + TSys.total lineSteps acts := by
  refine ⟨(inv_invariant s h).safe, fun acts s' hrun => ?_⟩
  exact TSys.Run.count_own (fun t _ _ ht hstep => (inv_invariant t ht).left_step hstep) h hrun

def newWorker : WorkerState :=
  ⟨Run.new "r".toList "ping".toList "ping".toList 0, .entering, fun _ => .entry, 0, 0, [], [],
    false⟩

theorem newWorker_initial : Initial newWorker :=
  ⟨⟨_, _, _, _, rfl⟩, .inl rfl, fun _ => rfl, rfl, rfl, rfl, rfl, rfl⟩

/-- A stop before the worker begins, and one after it is done. -/
theorem stop_safe_first_and_late : ∃ s, system.Reachable s ∧
    (s.killedFirst = true ∧ s.lateKills = [1] ∧ s.finishCalls = 1) ∧ s.Safe := by
  obtain ⟨s, hs, hp⟩ := TSys.exists_reachable_of_runFn (f := step)
    [.killer 0 (.ok true), .enter (.ok 7), .finish 1 (.error .other), .killer 1 (.ok true)]
    (fun s => s.killedFirst = true ∧ s.lateKills = [1] ∧ s.finishCalls = 1)
    newWorker_initial (by decide)
  obtain ⟨hsafe, -⟩ := stop_safe s hs
  exact ⟨s, hs, of_decide_eq_true hp, hsafe⟩

end WorkerState

end SrxProbe.Dashboard
