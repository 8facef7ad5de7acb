import SrxProbe.Dashboard.Worker

/-!
# A stop that comes first prevents the process

The worker's locked block is the one place where a process is made, and `finish`
the one place where the run ends. Every other step is `Quiet`: it leaves the
process, the end and a request to stop as they are.
-/

namespace SrxProbe.Dashboard

open SrxProbe.Lib

namespace Run

/-- A change of a run that neither ends it nor gives it a process, and that does
not take a request to stop back. -/
structure Quiet (r r' : Run) : Prop where
  inv : r.Inv → r'.Inv
  terminal : r'.terminal = r.terminal
  proc : r'.proc = r.proc
  stop : r.stopRequested = true → r'.stopRequested = true

theorem Quiet.refl (r : Run) : Quiet r r := ⟨fun h => h, rfl, rfl, fun h => h⟩

/-- Every operation but `finish` is quiet. -/
theorem Effect.quiet {r r' : Run} {op : Op} (h : Effect r op r') (hinv : r.Inv)
    (hop : ∀ rc now recorded, op ≠ .finish rc now recorded) : Quiet r r' := by
  have hinv' : r'.Inv := hinv.effect h
  cases h with
  | finish rc now recorded _ => exact absurd rfl (hop rc now recorded)
  | _ => exact ⟨fun _ => hinv', rfl, rfl, fun h => h⟩

theorem emit_quiet {r r' : Run} {line : PyStr} (hinv : r.Inv) (h : r.emit line = .ok r') :
    Quiet r r' :=
  have heffect : Effect r (.emit line) r' := exec_effect hinv.subs.nodup h
  heffect.quiet hinv nofun

/-- Asking a run to stop is quiet. -/
theorem stop_quiet (r : Run) : Quiet r { r with stopRequested := true } where
  inv := fun h => ⟨h.log.of_eq rfl rfl rfl, h.output.of_eq rfl rfl,
    h.subs.sublist (List.Sublist.refl _) rfl, h.latch.of_eq rfl rfl rfl rfl⟩
  terminal := rfl
  proc := rfl
  stop := fun _ => rfl

end Run

/-- The return code of an `end` event. -/
def Event.rc? (e : Event) : Option Int :=
  match e.data with
  | .end payload => some payload.rc
  | _ => none

theorem endPayload_rc (r : Run) (rc : Int) (now : Time) (recorded : Except PyErr BatchRef) :
    (r.endPayload rc now recorded).rc = rc := by
  unfold Run.endPayload
  dsimp only
  split
  · cases recorded <;> rfl
  · rfl

/-! ## `kill_run` -/

/-- No step leads back to the beginning. -/
theorem killStep_ne_entry {r r' : Run} {pc : KillPc} {reply : Except Raised Bool}
    {signalled : Bool} : killStep r pc reply ≠ some (r', .entry, signalled) := by
  intro h
  unfold killStep at h
  split at h
  · split at h
    · cases h
    · dsimp only at h
      split at h <;> cases h
  · split at h <;> cases h
  · split at h <;> cases h
  · split at h <;> cases h
  · split at h <;> cases h
  · split at h <;> cases h
  · cases h
  · cases h

theorem killStep_quiet {r r' : Run} {pc pc' : KillPc} {reply : Except Raised Bool}
    {signalled : Bool} (hinv : r.Inv) (h : killStep r pc reply = some (r', pc', signalled)) :
    r.Quiet r' := by
  cases pc with
  | entry =>
      simp only [killStep] at h
      split at h
      · cases h
        exact .refl r
      · split at h <;> cases h <;> exact r.stop_quiet
  | failing e =>
      simp only [killStep] at h
      split at h
      · rename_i r'' hemit
        cases h
        exact Run.emit_quiet hinv hemit
      · cases h
  | returned value => cases h
  | raised => cases h
  | polling => simp only [killStep] at h; split at h <;> cases h <;> exact .refl r
  | terminating => simp only [killStep] at h; split at h <;> cases h <;> exact .refl r
  | checking => simp only [killStep] at h; split at h <;> cases h <;> exact .refl r
  | killing => simp only [killStep] at h; split at h <;> cases h <;> exact .refl r

/-- The locked block of `kill_run`: too late, or it asks the run to stop. -/
theorem killStep_entry {r r' : Run} {pc' : KillPc} {reply : Except Raised Bool} {signalled : Bool}
    (h : killStep r .entry reply = some (r', pc', signalled)) :
    signalled = false ∧
      if r.terminal.isSome then pc' = .returned false else r'.stopRequested = true := by
  simp only [killStep] at h
  split at h
  · rename_i hterm
    cases h
    rw [if_pos hterm]
    exact ⟨rfl, rfl⟩
  · rename_i hterm
    rw [if_neg hterm]
    split at h <;> cases h <;> exact ⟨rfl, rfl⟩

namespace WorkerPc

/-- Between the locked block and `finish`. -/
def running : WorkerPc → Bool
  | .entering => false
  | .finishing _ => false
  | .done => false
  | _ => true

theorem ne_of_running {pc : WorkerPc} (h : pc.running = true) : pc ≠ .entering ∧ pc ≠ .done := by
  constructor
  · intro heq
    rw [heq] at h
    cases h
  · intro heq
    rw [heq] at h
    cases h

end WorkerPc

namespace WorkerState

/-- What one step of the worker does, as far as the end and the process go. -/
inductive Move (s : WorkerState) : WorkerState → Prop
  /-- the stop check finds a request -/
  | stopped : s.worker = .entering → s.run.stopRequested = true →
      Move s { s with worker := .finishing (-sigterm) }
  /-- the stop check finds none: `Popen` is called -/
  | popen proc pc : s.worker = .entering → s.run.stopRequested = false → pc.running = true →
      Move s { s with run := { s.run with proc }, worker := pc, popenCalls := s.popenCalls + 1 }
  /-- on the way to `finish` -/
  | onward run pc signals : s.worker.running = true → s.run.Quiet run →
      (pc.running = true ∨ ∃ rc, pc = .finishing rc) →
      (∀ k, some k ∈ signals → some k ∈ s.signals) →
      Move s { s with run, worker := pc, signals }
  | finish rc now recorded run : s.worker = .finishing rc →
      s.run.exec (.finish rc now recorded) = .ok run →
      Move s { s with run, worker := .done, finishCalls := s.finishCalls + 1 }

theorem emitting_move {s s' : WorkerState} {line : PyStr} {pc : WorkerPc} (hinv : s.run.Inv)
    (h : s.emitting line pc = some s') (hrunning : s.worker.running = true)
    (hpc : pc.running = true ∨ ∃ rc, pc = .finishing rc) : Move s s' := by
  unfold emitting at h
  split at h
  · rename_i run hemit
    cases h
    exact .onward run pc s.signals hrunning (Run.emit_quiet hinv hemit) hpc (fun _ hk => hk)
  · cases h

/-- A step that only moves the worker along. -/
theorem move_of_pc {s : WorkerState} {pc : WorkerPc} (hrunning : s.worker.running = true)
    (hpc : pc.running = true ∨ ∃ rc, pc = .finishing rc) : Move s { s with worker := pc } :=
  .onward s.run pc s.signals hrunning (.refl _) hpc (fun _ hk => hk)

theorem workerStep_move {s s' : WorkerState} {act : WorkerAct} (hinv : s.run.Inv)
    (h : s.workerStep act = some s') : Move s s' := by
  cases act with
  | enter popen =>
      simp only [workerStep] at h
      split at h
      · rename_i hpc
        split at h
        · rename_i hstop
          cases h
          exact .stopped hpc hstop
        · rename_i hstop
          have hstop' : s.run.stopRequested = false := by simpa using hstop
          cases popen with
          | ok pid =>
              cases h
              exact .popen (some pid) .greeting hpc hstop' rfl
          | error e =>
              cases h
              exact .popen s.run.proc (.handling false e) hpc hstop' rfl
      · cases h
  -- whatever is emitted, the worker goes on as it would have, or handles the error
  | emit =>
      simp only [workerStep] at h
      split at h
      · rename_i hpc
        exact emitting_move hinv h (hpc ▸ rfl) (.inl rfl)
      · rename_i line hpc
        exact emitting_move hinv h (hpc ▸ rfl) (.inl rfl)
      · rename_i proc e hpc
        refine emitting_move hinv h (hpc ▸ rfl) ?_
        cases proc with
        | true => exact .inl rfl
        | false => exact .inr ⟨_, rfl⟩
      · rename_i e hpc
        exact emitting_move hinv h (hpc ▸ rfl) (.inr ⟨1, rfl⟩)
      · cases h
  | read line =>
      simp only [workerStep] at h
      split at h
      · rename_i hpc
        cases h
        exact move_of_pc (hpc ▸ rfl) (.inl rfl)
      · rename_i hpc
        cases h
        exact move_of_pc (hpc ▸ rfl) (.inl rfl)
      · rename_i hpc
        cases h
        exact move_of_pc (hpc ▸ rfl) (.inl rfl)
      · cases h
  | wait rc =>
      simp only [workerStep] at h
      split at h
      · rename_i hpc
        cases h
        exact move_of_pc (hpc ▸ rfl) (.inl rfl)
      · rename_i hpc
        cases h
        exact move_of_pc (hpc ▸ rfl) (.inl rfl)
      · cases h
  | poll alive =>
      simp only [workerStep] at h
      split at h
      · rename_i hpc
        cases h
        exact move_of_pc (hpc ▸ rfl) (.inl rfl)
      · rename_i hpc _
        cases h
        exact move_of_pc (hpc ▸ rfl) (.inl rfl)
      · cases h
  | kill reply =>
      simp only [workerStep] at h
      split at h
      · rename_i hpc
        cases h
        exact move_of_pc (hpc ▸ rfl) (.inl rfl)
      · rename_i hpc
        cases h
        exact move_of_pc (hpc ▸ rfl) (.inl rfl)
      · rename_i hpc
        split at h
        · rename_i run pc' signalled hkill
          cases h
          refine .onward run _ _ (hpc ▸ rfl) (killStep_quiet hinv hkill) (.inl rfl) ?_
          intro k hk
          split at hk
          · rcases List.mem_append.mp hk with hk | hk
            · exact hk
            · exact absurd (List.mem_singleton.mp hk) nofun
          · exact hk
        · cases h
      · cases h
  | close result =>
      simp only [workerStep] at h
      split at h
      · rename_i rc hpc
        cases h
        exact move_of_pc (hpc ▸ rfl) (.inr ⟨rc, rfl⟩)
      · cases h
  | finish now recorded =>
      simp only [workerStep] at h
      split at h
      · rename_i rc hpc
        split at h
        · rename_i run hfinish
          cases h
          exact .finish rc now recorded run hpc hfinish
        · cases h
      · cases h
  | killer k reply => cases h
  | client op => cases h

/-! ## The invariant -/

/-- What holds in every reachable state. -/
structure Inv (s : WorkerState) : Prop where
  run : s.run.Inv
  /-- the run ends with the worker's `finish` -/
  ended : s.worker = .done ↔ s.run.terminal.isSome = true
  finishCalls : s.finishCalls = if s.worker = .done then 1 else 0
  popenCalls : s.popenCalls ≤ 1
  unopened : s.worker = .entering → s.popenCalls = 0 ∧ s.run.proc = none
  /-- a stop that came first is on its way to the worker, or has reached it -/
  stopped : s.killedFirst = true → s.popenCalls = 0 ∧ s.run.proc = none ∧
    ((s.worker = .entering ∧ s.run.stopRequested = true) ∨ s.worker = .finishing (-sigterm) ∨
      (s.worker = .done ∧ ∀ e, s.run.terminal = some e → e.rc? = some (-sigterm)))
  late : ∀ k ∈ s.lateKills, s.killers k = .returned false ∧ some k ∉ s.signals
  /-- a call that has not begun has sent nothing -/
  unbegun : ∀ k, s.killers k = .entry → some k ∉ s.signals

theorem Inv.move {s s' : WorkerState} (h : s.Inv) (hmove : Move s s') : s'.Inv := by
  cases hmove with
  | stopped hpc hstop =>
      -- the worker saw the stop in time: no process, and the return code of SIGTERM
      obtain ⟨hcalls, hproc⟩ := h.unopened hpc
      refine ⟨h.run, ?_, ?_, h.popenCalls, nofun, ?_, h.late, h.unbegun⟩
      · have hended := h.ended
        rw [hpc] at hended
        exact ⟨nofun, fun hterm => absurd (hended.mpr hterm) nofun⟩
      · have hfinish := h.finishCalls
        rwa [if_neg (by rw [hpc]; nofun)] at hfinish
      · exact fun _ => ⟨hcalls, hproc, .inr (.inl rfl)⟩
  | popen proc pc hpc hstop hrunning =>
      obtain ⟨hcalls, hproc⟩ := h.unopened hpc
      have hpc' := WorkerPc.ne_of_running hrunning
      refine ⟨?_, ?_, ?_, ?_, ?_, ?_, h.late, h.unbegun⟩
      · exact ⟨h.run.log.of_eq rfl rfl rfl, h.run.output.of_eq rfl rfl,
          h.run.subs.sublist (List.Sublist.refl _) rfl, h.run.latch.of_eq rfl rfl rfl rfl⟩
      · have hended := h.ended
        rw [hpc] at hended
        exact ⟨fun heq => absurd heq hpc'.2, fun hterm => absurd (hended.mpr hterm) nofun⟩
      · have hfinish := h.finishCalls
        rw [if_neg (by rw [hpc]; nofun)] at hfinish
        rw [if_neg hpc'.2]
        exact hfinish
      · show s.popenCalls + 1 ≤ 1
        rw [hcalls]
      · exact fun heq => absurd heq hpc'.1
      · -- a stop that came first would have been seen
        intro hfirst
        obtain ⟨-, -, ⟨-, hrequested⟩ | hfinishing | ⟨hdone, -⟩⟩ := h.stopped hfirst
        · rw [hstop] at hrequested
          cases hrequested
        · rw [hpc] at hfinishing
          cases hfinishing
        · rw [hpc] at hdone
          cases hdone
  | onward run pc signals hrunning hquiet hpc hsignals =>
      have hpc' : pc ≠ .entering ∧ pc ≠ .done := by
        rcases hpc with hpc | ⟨rc, rfl⟩
        · exact WorkerPc.ne_of_running hpc
        · exact ⟨nofun, nofun⟩
      have hnotdone := (WorkerPc.ne_of_running hrunning).2
      refine ⟨hquiet.inv h.run, ?_, ?_, h.popenCalls, fun heq => absurd heq hpc'.1, ?_, ?_, ?_⟩
      · rw [hquiet.terminal]
        exact ⟨fun heq => absurd heq hpc'.2, fun hterm => absurd (h.ended.mpr hterm) hnotdone⟩
      · have hfinish := h.finishCalls
        rw [if_neg hnotdone] at hfinish
        rw [if_neg hpc'.2]
        exact hfinish
      · intro hfirst
        obtain ⟨-, -, hcase⟩ := h.stopped hfirst
        rcases hcase with ⟨heq, -⟩ | heq | ⟨heq, -⟩
        · rw [heq] at hrunning
          cases hrunning
        · rw [heq] at hrunning
          cases hrunning
        · exact absurd heq hnotdone
      · intro k hk
        obtain ⟨hreturned, hnot⟩ := h.late k hk
        exact ⟨hreturned, fun hmem => hnot (hsignals k hmem)⟩
      · exact fun k hk hmem => h.unbegun k hk (hsignals k hmem)
  | finish rc now recorded run hpc hexec =>
      have hterm : s.run.terminal.isSome = false := by
        cases hsome : s.run.terminal.isSome with
        | false => rfl
        | true =>
            have hdone := h.ended.mpr hsome
            rw [hpc] at hdone
            cases hdone
      have hrun : run = s.run.afterFinish rc now recorded := by
        have hfinish := Run.finish_eq s.run rc now recorded h.run.subs.nodup
        rw [if_neg (by rw [hterm]; exact Bool.false_ne_true)] at hfinish
        exact Except.ok.inj (hexec.symm.trans hfinish)
      refine ⟨h.run.exec_ok hexec, ?_, ?_, h.popenCalls, nofun, ?_, h.late, h.unbegun⟩
      · rw [hrun]
        exact ⟨fun _ => rfl, fun _ => rfl⟩
      · have hfinish := h.finishCalls
        rw [if_neg (by rw [hpc]; nofun)] at hfinish
        show s.finishCalls + 1 = _
        rw [hfinish]
        rfl
      · intro hfirst
        obtain ⟨hcalls, hproc, hcase⟩ := h.stopped hfirst
        -- after a stop that came first the worker can only be on its way out with SIGTERM
        have hrc : rc = -sigterm := by
          rcases hcase with ⟨heq, -⟩ | heq | ⟨heq, -⟩
          · rw [hpc] at heq
            cases heq
          · rw [hpc] at heq
            cases heq
            rfl
          · rw [hpc] at heq
            cases heq
        refine ⟨hcalls, ?_, .inr (.inr ⟨rfl, ?_⟩)⟩
        · rw [hrun]
          exact hproc
        · intro e he
          rw [hrun] at he
          cases he
          show some (s.run.endPayload rc now recorded).rc = _
          rw [endPayload_rc, hrc]

/-- A quiet change by somebody else. -/
theorem Inv.of_quiet {s s' : WorkerState} {run : Run} (h : s.Inv) (hquiet : s.run.Quiet run)
    (hrun : s'.run = run) (hworker : s'.worker = s.worker) (hpopen : s'.popenCalls = s.popenCalls)
    (hfinish : s'.finishCalls = s.finishCalls)
    (hfirst : s'.killedFirst = true → s.killedFirst = true ∨
      (s.worker = .entering ∧ run.stopRequested = true))
    (hlate : ∀ k ∈ s'.lateKills, s'.killers k = .returned false ∧ some k ∉ s'.signals)
    (hunbegun : ∀ k, s'.killers k = .entry → some k ∉ s'.signals) : s'.Inv where
  run := hrun ▸ hquiet.inv h.run
  ended := by rw [hworker, hrun, hquiet.terminal]; exact h.ended
  finishCalls := by rw [hfinish, hworker]; exact h.finishCalls
  popenCalls := by rw [hpopen]; exact h.popenCalls
  unopened := by rw [hworker, hpopen, hrun, hquiet.proc]; exact h.unopened
  stopped := by
    intro hs'
    rw [hpopen, hrun, hquiet.proc, hworker, hquiet.terminal]
    rcases hfirst hs' with hs | ⟨hpc, hstop⟩
    · obtain ⟨hcalls, hproc, hcase⟩ := h.stopped hs
      exact ⟨hcalls, hproc, hcase.imp_left (fun hpc => ⟨hpc.1, hquiet.stop hpc.2⟩)⟩
    · obtain ⟨hcalls, hproc⟩ := h.unopened hpc
      exact ⟨hcalls, hproc, .inl ⟨hpc, hstop⟩⟩
  late := hlate
  unbegun := hunbegun

theorem Inv.killer {s s' : WorkerState} {k : KillerId} {reply : Except Raised Bool} (h : s.Inv)
    (hstep : s.killerStep k reply = some s') : s'.Inv := by
  unfold killerStep at hstep
  split at hstep
  · rename_i run pc signalled hkill
    cases hstep
    -- the calls other than `k` are as they were
    have hother : ∀ j, j ≠ k → some j ∉ s.signals →
        some j ∉ (if signalled then s.signals ++ [some k] else s.signals) := by
      intro j hj hnot hmem
      split at hmem
      · rcases List.mem_append.mp hmem with hmem | hmem
        · exact hnot hmem
        · exact hj (Option.some.inj (List.mem_singleton.mp hmem))
      · exact hnot hmem
    have hpc : ∀ j, j ≠ k → update s.killers k pc j = s.killers j :=
      fun j hj => update_of_ne _ _ hj
    -- a call that has returned, or that begins, does not signal in this step
    have hreturned : s.killers k ≠ .returned false := by
      intro heq
      rw [heq] at hkill
      cases hkill
    refine h.of_quiet (killStep_quiet h.run hkill) rfl rfl rfl rfl ?_ ?_ ?_
    · intro hfirst
      rcases Bool.or_eq_true_iff.mp hfirst with hfirst | hfirst
      · exact .inl hfirst
      · simp only [Bool.and_eq_true, decide_eq_true_eq] at hfirst
        obtain ⟨hentry, hentering⟩ := hfirst
        rw [hentry] at hkill
        have hactive : ¬ s.run.terminal.isSome = true := by
          intro hterm
          have hdone := h.ended.mpr hterm
          rw [hentering] at hdone
          cases hdone
        have hstop := (killStep_entry hkill).2
        rw [if_neg hactive] at hstop
        exact .inr ⟨hentering, hstop⟩
    · intro j hj
      have hold : j ∈ s.lateKills → update s.killers k pc j = .returned false ∧
          some j ∉ (if signalled then s.signals ++ [some k] else s.signals) := by
        intro hmem
        obtain ⟨hret, hnot⟩ := h.late j hmem
        have hne : j ≠ k := fun heq => hreturned (heq ▸ hret)
        exact ⟨(hpc j hne).trans hret, hother j hne hnot⟩
      dsimp only at hj ⊢
      split at hj
      · rename_i hlate
        obtain ⟨hentry, hterm⟩ := hlate
        rcases List.mem_append.mp hj with hj | hj
        · exact hold hj
        · -- `k` itself comes after the end
          rw [List.mem_singleton] at hj
          subst hj
          have hnot := h.unbegun j hentry
          rw [hentry] at hkill
          obtain ⟨hsignal, hret⟩ := killStep_entry hkill
          rw [if_pos hterm] at hret
          rw [update_self, hsignal]
          exact ⟨hret, hnot⟩
      · exact hold hj
    · intro j hj
      by_cases hjk : j = k
      · -- no step leads back to the beginning
        subst hjk
        dsimp only at hj
        rw [update_self] at hj
        exact absurd (hj ▸ hkill) killStep_ne_entry
      · dsimp only at hj
        rw [hpc j hjk] at hj
        exact hother j hjk (h.unbegun j hj)
  · cases hstep

theorem Inv.step {s s' : WorkerState} {act : WorkerAct} (h : s.Inv) (hstep : s.step act = some s') :
    s'.Inv := by
  cases act with
  | killer k reply => exact h.killer hstep
  | client op =>
      simp only [WorkerState.step] at hstep
      split at hstep
      · rename_i hclient
        split at hstep
        · rename_i run hexec
          cases hstep
          have heffect := Run.exec_effect h.run.subs.nodup hexec
          have hquiet : s.run.Quiet run := by
            refine heffect.quiet h.run ?_
            rintro rc now recorded rfl
            cases hclient
          exact h.of_quiet hquiet rfl rfl rfl rfl .inl h.late h.unbegun
        · cases hstep
      · cases hstep
  | enter popen =>
      exact h.move (workerStep_move h.run (show s.workerStep (.enter popen) = some s' from hstep))
  | emit =>
      exact h.move (workerStep_move h.run (show s.workerStep .emit = some s' from hstep))
  | read line =>
      exact h.move (workerStep_move h.run (show s.workerStep (.read line) = some s' from hstep))
  | wait rc =>
      exact h.move (workerStep_move h.run (show s.workerStep (.wait rc) = some s' from hstep))
  | poll alive =>
      exact h.move (workerStep_move h.run (show s.workerStep (.poll alive) = some s' from hstep))
  | kill reply =>
      exact h.move (workerStep_move h.run (show s.workerStep (.kill reply) = some s' from hstep))
  | close result =>
      exact h.move (workerStep_move h.run (show s.workerStep (.close result) = some s' from hstep))
  | finish now recorded =>
      have hstep' : s.workerStep (.finish now recorded) = some s' := hstep
      exact h.move (workerStep_move h.run hstep')

theorem inv_invariant : system.Invariant Inv := by
  refine TSys.Inductive.invariant ⟨?_, fun s act s' h hstep => h.step hstep⟩
  rintro s ⟨⟨id, cmdline, workload, now, hrun⟩, hworker, hkillers, hpopen, hfinish, hsignals,
    hlate, hfirst⟩
  have hnotdone : s.worker ≠ .done := by
    rcases hworker with hpc | ⟨e, hpc⟩ <;> rw [hpc] <;> exact nofun
  refine ⟨?_, ?_, ?_, ?_, ?_, ?_, ?_, ?_⟩
  · rw [hrun]
    exact Run.Inv.new id cmdline workload now
  · rw [hrun]
    exact ⟨fun hdone => absurd hdone hnotdone, nofun⟩
  · rw [if_neg hnotdone, hfinish]
  · rw [hpopen]
    exact Nat.zero_le 1
  · rw [hpopen, hrun]
    exact fun _ => ⟨rfl, rfl⟩
  · rw [hfirst]
    exact nofun
  · rw [hlate]
    exact nofun
  · rw [hsignals]
    exact fun _ _ => List.not_mem_nil

end WorkerState

end SrxProbe.Dashboard
