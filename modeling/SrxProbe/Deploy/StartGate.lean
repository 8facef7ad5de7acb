import SrxProbe.Deploy.ExecutionSafety

/-!
# The start gate

`run_concurrently` submits every workload to an executor whose workers wait for a gate, and
opens the gate when all are submitted. On its way out of the executor, the normal one or that
of an exception, it waits for the workers that were started. Where a submission raises after
another succeeded, the gate stays closed and these wait for each other.
-/

namespace SrxProbe.Deploy

open SrxProbe.Lib SrxProbe.Generators

/-! ## The parties -/

/-- A worker of the executor. A future holds what `_run_workload` returns, or `none` where an
exception got past it. -/
inductive Worker
  | unstarted
  | waiting
  | running
  | finished (result : Option (Outcome × Time))

namespace Worker

def isUnstarted : Worker → Bool
  | unstarted => true
  | _ => false

def isWaiting : Worker → Bool
  | waiting => true
  | _ => false

def isRunning : Worker → Bool
  | running => true
  | _ => false

/-- There is nothing to wait for. -/
def isDone : Worker → Bool
  | unstarted | finished _ => true
  | _ => false

end Worker

/-- Where the submitting thread is: at its checks, with so many workloads submitted, in the
loop over the futures, in the exit of the executor, or at the end of the call. -/
inductive GateStage
  | checking
  | submitting (count : Nat)
  | collecting
  | leaving (failed : Bool)
  | ended (failed : Bool)
  deriving DecidableEq

/-- A call of `run_concurrently` with its workers, one for each position in the list. -/
structure GateState where
  stage : GateStage
  gate : Bool
  worker : Nat → Worker
  collected : List Nat

inductive GateEvent
  | check
  | submit
  | submitRaises
  | openGate
  | pass (i : Nat)
  | finish (i : Nat) (result : Option (Outcome × Time))
  | collect (i : Nat)
  | exhaust
  | leave

section step

variable (tasks : List Task) (limits : WorkloadLimits)

/-- The stage after the checks. -/
def gateChecked : GateStage :=
  match checked tasks limits with
  | .executing => .submitting 0
  | .raised _ => .ended true
  | .checking | .returned _ => .ended false

/-- The steps of a call and of its workers. `future.result()` raises what got past
`_run_workload`, and the executor is left when every worker that was started is done. -/
inductive GateStep : GateState → GateEvent → GateState → Prop
  | check {s : GateState} (hstage : s.stage = .checking) :
      GateStep s .check { s with stage := gateChecked tasks limits }
  | submit {s : GateState} {k : Nat} (hstage : s.stage = .submitting k) (hk : k < tasks.length) :
      GateStep s .submit
        { s with stage := .submitting (k + 1), worker := update s.worker k .waiting }
  | submitRaises {s : GateState} {k : Nat} (hstage : s.stage = .submitting k)
      (hk : k < tasks.length) : GateStep s .submitRaises { s with stage := .leaving true }
  | openGate {s : GateState} (hstage : s.stage = .submitting tasks.length) :
      GateStep s .openGate { s with stage := .collecting, gate := true }
  | pass {s : GateState} {i : Nat} (hgate : s.gate = true) (hworker : s.worker i = .waiting) :
      GateStep s (.pass i) { s with worker := update s.worker i .running }
  | finish {s : GateState} {i : Nat} (result : Option (Outcome × Time))
      (hworker : s.worker i = .running) :
      GateStep s (.finish i result) { s with worker := update s.worker i (.finished result) }
  | collect {s : GateState} {i : Nat} {value : Outcome × Time} (hstage : s.stage = .collecting)
      (hnew : i ∉ s.collected) (hworker : s.worker i = .finished (some value)) :
      GateStep s (.collect i) { s with collected := s.collected ++ [i] }
  | collectRaises {s : GateState} {i : Nat} (hstage : s.stage = .collecting)
      (hnew : i ∉ s.collected) (hworker : s.worker i = .finished none) :
      GateStep s (.collect i) { s with stage := .leaving true }
  | exhaust {s : GateState} (hstage : s.stage = .collecting)
      (hall : s.collected.length = tasks.length) :
      GateStep s .exhaust { s with stage := .leaving false }
  | leave {s : GateState} {failed : Bool} (hstage : s.stage = .leaving failed)
      (hdone : ∀ i, (s.worker i).isDone = true) :
      GateStep s .leave { s with stage := .ended failed }

/-- The state before the checks. -/
def GateState.start : GateState := ⟨.checking, false, fun _ => .unstarted, []⟩

/-- The calls of `run_concurrently` on a list of workloads, with the gate. -/
def gated : TSys GateState GateEvent where
  init := (· = GateState.start)
  step := GateStep tasks limits

end step

/-- The call has returned or raised, and no worker waits. -/
def GateState.Final (s : GateState) : Prop :=
  (∃ failed, s.stage = .ended failed) ∧ ∀ i, (s.worker i).isWaiting = false

/-- The call leaves the executor with the gate closed, and the first worker waits for it. -/
def GateState.Abandoned (s : GateState) : Prop :=
  s.stage = .leaving true ∧ s.gate = false ∧ (s.worker 0).isWaiting = true

/-- No submission raises but the first. -/
def OnlyFirstRaises (s : GateState) (e : GateEvent) : Prop :=
  e = .submitRaises → s.stage = .submitting 0

/-! ## What holds in every state -/

section invariant

variable {tasks : List Task} {limits : WorkloadLimits} {s s' : GateState} {e : GateEvent}

/-- While the gate is closed, the workers that were started wait for it. -/
structure Closed (n k : Nat) (s : GateState) : Prop where
  gate : s.gate = false
  worker : s.worker = fun i => if i < k then .waiting else .unstarted
  le : k ≤ n
  collected : s.collected = []
  stage : (s.stage = .checking ∧ k = 0) ∨ s.stage = .submitting k ∨ s.stage = .leaving true ∨
    ∃ failed, s.stage = .ended failed ∧ k = 0

/-- Once it is open, all workers were started. -/
structure Opened (n : Nat) (s : GateState) : Prop where
  gate : s.gate = true
  worker : ∀ i, s.worker i = .unstarted ↔ n ≤ i
  collected : s.collected.Nodup ∧ ∀ i ∈ s.collected, i < n
  stage : s.stage = .collecting ∨ (∃ failed, s.stage = .leaving failed) ∨
    ∃ failed, s.stage = .ended failed ∧ ∀ i, (s.worker i).isDone = true

/-- One or the other. -/
def GateSound (n : Nat) (s : GateState) : Prop := (∃ k, Closed n k s) ∨ Opened n s

theorem gateChecked_cases (tasks : List Task) (limits : WorkloadLimits) :
    gateChecked tasks limits = .submitting 0 ∨
      ∃ failed, gateChecked tasks limits = .ended failed := by
  unfold gateChecked
  split
  · exact .inl rfl
  · exact .inr ⟨true, rfl⟩
  · exact .inr ⟨false, rfl⟩
  · exact .inr ⟨false, rfl⟩

theorem closed_start (n : Nat) : Closed n 0 GateState.start :=
  ⟨rfl, rfl, Nat.zero_le n, rfl, .inl ⟨rfl, rfl⟩⟩

theorem Closed.worker_eq {n k i : Nat} (h : Closed n k s) :
    s.worker i = if i < k then .waiting else .unstarted := congrFun h.worker i

/-- With the gate closed no worker runs. -/
theorem Closed.not_running {n k i : Nat} (h : Closed n k s) : s.worker i ≠ .running := by
  rw [h.worker_eq]
  split <;> exact Worker.noConfusion

theorem Closed.not_finished {n k i : Nat} {result : Option (Outcome × Time)} (h : Closed n k s) :
    s.worker i ≠ .finished result := by
  rw [h.worker_eq]
  split <;> exact Worker.noConfusion

theorem Closed.not_collecting {n k : Nat} (h : Closed n k s) : s.stage ≠ .collecting := by
  intro hstage
  rcases h.stage with ⟨hs, -⟩ | hs | hs | ⟨_, hs, -⟩
  all_goals cases hstage.symm.trans hs

theorem Closed.count {n k j : Nat} (h : Closed n k s) (hstage : s.stage = .submitting j) :
    j = k := by
  rcases h.stage with ⟨hs, -⟩ | hs | hs | ⟨_, hs, -⟩
  · cases hstage.symm.trans hs
  · cases hstage.symm.trans hs
    rfl
  all_goals cases hstage.symm.trans hs

theorem Closed.zero {n k : Nat} (h : Closed n k s) (hstage : s.stage = .checking) : k = 0 := by
  rcases h.stage with ⟨-, hk⟩ | hs | hs | ⟨_, hs, -⟩
  · exact hk
  all_goals cases hstage.symm.trans hs

theorem Closed.step {k : Nat} (h : Closed tasks.length k s) (hstep : GateStep tasks limits s e s') :
    GateSound tasks.length s' := by
  cases hstep with
  | check hstage =>
      obtain rfl := h.zero hstage
      refine .inl ⟨0, h.gate, h.worker, h.le, h.collected, ?_⟩
      rcases gateChecked_cases tasks limits with hs | ⟨failed, hs⟩
      · exact .inr (.inl hs)
      · exact .inr (.inr (.inr ⟨failed, hs, rfl⟩))
  | submit hstage hj =>
      obtain rfl := h.count hstage
      refine .inl ⟨_, h.gate, ?_, hj, h.collected, .inr (.inl rfl)⟩
      funext i
      show update s.worker _ .waiting i = _
      rw [h.worker, update]
      simp only [Nat.lt_succ_iff_lt_or_eq]
      split
      · rename_i hi
        rw [if_pos (.inr hi)]
      · rename_i hi
        simp only [hi, or_false]
  | submitRaises =>
      exact .inl ⟨k, h.gate, h.worker, h.le, h.collected, .inr (.inr (.inl rfl))⟩
  | openGate hstage =>
      have hk := h.count hstage
      refine .inr ⟨rfl, fun i => ?_, ?_, .inl rfl⟩
      · show s.worker i = .unstarted ↔ _
        rw [h.worker_eq, ← hk]
        split
        · rename_i hi
          simp [hi]
        · rename_i hi
          simpa using hi
      · show s.collected.Nodup ∧ ∀ i ∈ s.collected, i < _
        rw [h.collected]
        exact ⟨List.nodup_nil, fun i hi => by cases hi⟩
  | pass hgate _ => cases hgate.symm.trans h.gate
  | finish _ hworker => exact absurd hworker h.not_running
  | collect _ _ hworker => exact absurd hworker h.not_finished
  | collectRaises _ _ hworker => exact absurd hworker h.not_finished
  | exhaust hstage => exact absurd hstage h.not_collecting
  | @leave failed _ hdone =>
      -- a worker that waits would not let the call leave
      have hk : k = 0 := by
        by_contra hpos
        have hworker := hdone 0
        rw [h.worker_eq, if_pos (by omega)] at hworker
        cases hworker
      subst hk
      exact .inl ⟨0, h.gate, h.worker, h.le, h.collected, .inr (.inr (.inr ⟨failed, rfl, rfl⟩))⟩

theorem Opened.not_checking {n : Nat} (h : Opened n s) : s.stage ≠ .checking := by
  intro hstage
  rcases h.stage with hs | ⟨_, hs⟩ | ⟨_, hs, -⟩
  all_goals cases hstage.symm.trans hs

theorem Opened.not_submitting {n k : Nat} (h : Opened n s) : s.stage ≠ .submitting k := by
  intro hstage
  rcases h.stage with hs | ⟨_, hs⟩ | ⟨_, hs, -⟩
  all_goals cases hstage.symm.trans hs

/-- A worker that goes on was started, and is not done when the call ends. -/
theorem Opened.move {n i : Nat} {w w' : Worker} (h : Opened n s) (hworker : s.worker i = w)
    (hw : w.isDone = false) (hw' : w'.isUnstarted = false) :
    Opened n { s with worker := update s.worker i w' } := by
  refine ⟨h.gate, fun j => ?_, h.collected, ?_⟩
  · show update s.worker i w' j = .unstarted ↔ _
    by_cases hji : j = i
    · subst hji
      rw [update_self, ← h.worker, hworker]
      refine iff_of_false ?_ ?_
      · rintro rfl
        cases hw'
      · rintro rfl
        cases hw
    · rw [update_of_ne _ _ hji]
      exact h.worker j
  · rcases h.stage with hs | hs | ⟨failed, hs, hdone⟩
    · exact .inl hs
    · exact .inr (.inl hs)
    · have hi := hdone i
      rw [hworker, hw] at hi
      cases hi

theorem Opened.step (h : Opened tasks.length s) (hstep : GateStep tasks limits s e s') :
    Opened tasks.length s' := by
  cases hstep with
  | check hstage => exact absurd hstage h.not_checking
  | submit hstage => exact absurd hstage h.not_submitting
  | submitRaises hstage => exact absurd hstage h.not_submitting
  | openGate hstage => exact absurd hstage h.not_submitting
  | pass _ hworker => exact h.move hworker rfl rfl
  | finish _ hworker => exact h.move hworker rfl rfl
  | @collect i _ hstage hnew hworker =>
      refine ⟨h.gate, h.worker, ⟨?_, ?_⟩, .inl hstage⟩
      · exact List.nodup_append.mpr ⟨h.collected.1, List.nodup_singleton i, fun j hj k hk heq =>
          hnew (List.mem_singleton.mp hk ▸ heq ▸ hj)⟩
      · intro j hj
        rcases List.mem_append.mp hj with hj | hj
        · exact h.collected.2 j hj
        · rw [List.mem_singleton.mp hj]
          by_contra hlt
          have hunstarted := (h.worker i).mpr (Nat.le_of_not_lt hlt)
          cases hworker.symm.trans hunstarted
  | collectRaises => exact ⟨h.gate, h.worker, h.collected, .inr (.inl ⟨true, rfl⟩)⟩
  | exhaust => exact ⟨h.gate, h.worker, h.collected, .inr (.inl ⟨false, rfl⟩)⟩
  | @leave failed _ hdone =>
      exact ⟨h.gate, h.worker, h.collected, .inr (.inr ⟨failed, rfl, hdone⟩)⟩

theorem gateSound_inductive : (gated tasks limits).Inductive (GateSound tasks.length) where
  init := by
    rintro s rfl
    exact .inl ⟨0, closed_start _⟩
  step := by
    rintro s e s' (⟨k, h⟩ | h) hstep
    · exact h.step hstep
    · exact .inr (h.step hstep)

theorem GateSound.reachable (h : (gated tasks limits).Reachable s) : GateSound tasks.length s :=
  gateSound_inductive.invariant s h

theorem GateSound.closed {n : Nat} (h : GateSound n s) (hgate : s.gate = false) :
    ∃ k, Closed n k s := by
  rcases h with h | h
  · exact h
  · cases hgate.symm.trans h.gate

/-! ## Progress -/

/-- Some step is enabled. -/
def Enabled (tasks : List Task) (limits : WorkloadLimits) (s : GateState) : Prop :=
  ∃ e s', GateStep tasks limits s e s'

theorem Closed.progress {k : Nat} (h : Closed tasks.length k s) (hlive : ¬ s.Abandoned) :
    s.Final ∨ Enabled tasks limits s := by
  rcases h.stage with ⟨hs, -⟩ | hs | hs | ⟨failed, hs, rfl⟩
  · exact .inr ⟨_, _, .check hs⟩
  · rcases h.le.lt_or_eq with hk | rfl
    · exact .inr ⟨_, _, .submit hs hk⟩
    · exact .inr ⟨_, _, .openGate hs⟩
  · -- nobody to wait for, or the first worker waits for ever
    have hk : k = 0 := by
      by_contra hpos
      refine hlive ⟨hs, h.gate, ?_⟩
      rw [h.worker_eq, if_pos (by omega)]
      rfl
    refine .inr ⟨_, _, .leave hs fun i => ?_⟩
    rw [h.worker_eq, hk]
    rfl
  · refine .inl ⟨⟨failed, hs⟩, fun i => ?_⟩
    rw [h.worker_eq]
    rfl

theorem Opened.progress (h : Opened tasks.length s) : s.Final ∨ Enabled tasks limits s := by
  by_cases hdone : ∀ i, (s.worker i).isDone = true
  · rcases h.stage with hs | ⟨failed, hs⟩ | ⟨failed, hs, -⟩
    · by_cases hall : ∀ i < tasks.length, i ∈ s.collected
      · have hperm : s.collected.Perm (List.range tasks.length) :=
          (List.perm_ext_iff_of_nodup h.collected.1 List.nodup_range).mpr fun i =>
            ⟨fun hi => List.mem_range.mpr (h.collected.2 i hi),
              fun hi => hall i (List.mem_range.mp hi)⟩
        have hlen := hperm.length_eq
        rw [List.length_range] at hlen
        exact .inr ⟨_, _, .exhaust hs hlen⟩
      · push Not at hall
        obtain ⟨i, hi, hnew⟩ := hall
        have hdone := hdone i
        cases hworker : s.worker i with
        | unstarted => exact absurd ((h.worker i).mp hworker) (Nat.not_le.mpr hi)
        | waiting =>
            rw [hworker] at hdone
            cases hdone
        | running =>
            rw [hworker] at hdone
            cases hdone
        | finished result =>
            cases result with
            | none => exact .inr ⟨_, _, .collectRaises hs hnew hworker⟩
            | some value => exact .inr ⟨_, _, .collect hs hnew hworker⟩
    · exact .inr ⟨_, _, .leave hs hdone⟩
    · refine .inl ⟨⟨failed, hs⟩, fun i => ?_⟩
      have hdone := hdone i
      cases hworker : s.worker i with
      | waiting =>
          rw [hworker] at hdone
          cases hdone
      | _ => rfl
  · -- a worker that is not done goes on, as the gate is open
    push Not at hdone
    obtain ⟨i, hi⟩ := hdone
    cases hworker : s.worker i with
    | unstarted =>
        rw [hworker] at hi
        exact absurd rfl hi
    | waiting => exact .inr ⟨_, _, .pass h.gate hworker⟩
    | running => exact .inr ⟨_, _, .finish none hworker⟩
    | finished result =>
        rw [hworker] at hi
        exact absurd rfl hi

/-- A call that was abandoned is stuck. -/
theorem stuck_of_abandoned (h : GateSound tasks.length s) (hab : s.Abandoned) :
    ¬ s.Final ∧ ¬ Enabled tasks limits s := by
  obtain ⟨hstage, hgate, hwaiting⟩ := hab
  refine ⟨fun hfinal => ?_, ?_⟩
  · obtain ⟨⟨failed, hs⟩, -⟩ := hfinal
    cases hs.symm.trans hstage
  · rintro ⟨e, s', hstep⟩
    obtain ⟨k, hclosed⟩ := h.closed hgate
    cases hstep with
    | check hs => cases hs.symm.trans hstage
    | submit hs => cases hs.symm.trans hstage
    | submitRaises hs => cases hs.symm.trans hstage
    | openGate hs => cases hs.symm.trans hstage
    | pass hopen => cases hopen.symm.trans hgate
    | finish _ hworker => exact hclosed.not_running hworker
    | collect hs => cases hs.symm.trans hstage
    | collectRaises hs => cases hs.symm.trans hstage
    | exhaust hs => cases hs.symm.trans hstage
    | leave _ hdone =>
        have hfirst := hdone 0
        cases hworker : s.worker 0 with
        | waiting =>
            rw [hworker] at hfirst
            cases hfirst
        | _ =>
            rw [hworker] at hwaiting
            cases hwaiting

/-- The gate opens, or no worker is started, where only the first submission may raise. -/
theorem not_abandoned (h : ((gated tasks limits).restrict OnlyFirstRaises).Reachable s) :
    ¬ s.Abandoned := by
  have hsound : ((gated tasks limits).restrict OnlyFirstRaises).Invariant
      (GateSound tasks.length) := gateSound_inductive.invariant.restrict OnlyFirstRaises
  have hinv : ((gated tasks limits).restrict OnlyFirstRaises).Invariant
      fun s => ¬ s.Abandoned := by
    refine hsound.strengthen ?_ ?_
    · rintro s rfl ⟨hstage, -⟩
      cases hstage
    · rintro s e s' hsound - hlive ⟨hok, hstep⟩ ⟨hstage, hgate, hwaiting⟩
      cases hstep with
      | check =>
          rcases gateChecked_cases tasks limits with hs | ⟨_, hs⟩
          all_goals cases hs.symm.trans hstage
      | submit => cases hstage
      | submitRaises =>
          -- the first one, so no worker was started
          obtain ⟨k, hclosed⟩ := hsound.closed hgate
          obtain rfl := hclosed.count (hok rfl)
          have hfirst : (s.worker 0).isWaiting = true := hwaiting
          rw [hclosed.worker_eq] at hfirst
          cases hfirst
      | openGate => cases hgate
      | pass hopen => cases hopen.symm.trans hgate
      | finish _ hworker =>
          obtain ⟨k, hclosed⟩ := hsound.closed hgate
          exact hclosed.not_running hworker
      | collect hs => cases hs.symm.trans hstage
      | collectRaises hs =>
          obtain ⟨k, hclosed⟩ := hsound.closed hgate
          exact hclosed.not_collecting hs
      | exhaust => cases hstage
      | leave => cases hstage
  exact hinv s h

/-- **The start gate.** While no submission but the first raises, the call and its workers
have a step to take until the call has ended. In general they are stuck exactly where the
call was abandoned with a worker behind the gate. -/
theorem gate_progress (tasks : List Task) (limits : WorkloadLimits) :
    (∀ s, ((gated tasks limits).restrict OnlyFirstRaises).Reachable s →
      s.Final ∨ Enabled tasks limits s) ∧
    ∀ s, (gated tasks limits).Reachable s →
      ((s.Final ∨ Enabled tasks limits s) ↔ ¬ s.Abandoned) := by
  have hlive : ∀ s, GateSound tasks.length s → ¬ s.Abandoned →
      s.Final ∨ Enabled tasks limits s := by
    rintro s (⟨k, h⟩ | h) hlive
    · exact h.progress hlive
    · exact h.progress
  constructor
  · intro s hs
    exact hlive s (GateSound.reachable hs.of_restrict) (not_abandoned hs)
  · intro s hs
    have hsound := GateSound.reachable hs
    refine ⟨fun h hab => ?_, hlive s hsound⟩
    obtain ⟨hfinal, henabled⟩ : ¬ s.Final ∧ ¬ Enabled tasks limits s :=
      stuck_of_abandoned hsound hab
    exact h.elim hfinal henabled

end invariant

/-- Two crafted workloads. -/
def twoTasks : List Task :=
  [⟨"malformed".toList, "do_malformed".toList, ⟨.malformed, fun _ => none, none⟩⟩,
    ⟨"bad-checksum".toList, "do_badcsum".toList, ⟨.badcsum, fun _ => none, none⟩⟩]

/-- The second submission raises: the first worker waits for the gate, and the call for it. -/
theorem second_submission_deadlocks :
    ∃ s, (gated twoTasks defaultLimits).Reachable s ∧ ¬ s.Final ∧
      ¬ Enabled twoTasks defaultLimits s := by
  have hchecked : gateChecked twoTasks defaultLimits = .submitting 0 := by decide
  have hrun : ∃ s, (gated twoTasks defaultLimits).Reachable s ∧ s.Abandoned := by
    refine ⟨_, .step (.step (.step (.init rfl) (.check rfl)) (.submit hchecked (by decide)))
      (.submitRaises rfl (by decide)), rfl, rfl, rfl⟩
  obtain ⟨s, hs, hab⟩ := hrun
  exact ⟨s, hs, stuck_of_abandoned (GateSound.reachable hs) hab⟩

/-! ## The execution behind the gate -/

section refinement

variable {tasks : List Task} {limits : WorkloadLimits} {s s' : GateState} {t : Exec}
  {e : GateEvent}

/-- Nothing raises: no submission, and no exception gets past `_run_workload`. -/
def Smooth (_ : GateState) (e : GateEvent) : Prop :=
  e ≠ .submitRaises ∧ ∀ i, e ≠ .finish i none

/-- How far the thread of a workload is, for the execution without a gate. -/
def Worker.phase : Worker → Phase
  | unstarted | waiting | finished none => .queued
  | running => .running
  | finished (some (outcome, elapsed)) => .finished outcome elapsed

/-- The stages that belong together. -/
def SameStage : GateStage → Stage → Prop
  | .checking, stage => stage = .checking
  | .submitting _, stage | .collecting, stage | .leaving false, stage => stage = .executing
  | .leaving true, _ => False
  | .ended true, stage => ∃ err, stage = .raised err
  | .ended false, stage => ∃ results, stage = .returned results

/-- A call with its gate and the same call without. -/
structure Refines (tasks : List Task) (s : GateState) (t : Exec) : Prop where
  stage : SameStage s.stage t.stage
  phase : ∀ i, t.phase i = (s.worker i).phase
  collected : t.collected.map Prod.fst = s.collected
  caught : ∀ i, s.worker i ≠ .finished none
  full : s.stage = .leaving false → s.collected.length = tasks.length

theorem sameStage_checked : SameStage (gateChecked tasks limits) (checked tasks limits) := by
  unfold gateChecked
  cases hchecked : checked tasks limits with
  | checking => exact absurd hchecked checked_ne_checking
  | executing => rfl
  | raised err => exact ⟨err, rfl⟩
  | returned results => exact ⟨results, rfl⟩

/-- With the gate open, the call executes while a worker is not done. -/
theorem Refines.executing (h : Refines tasks s t) (hsound : GateSound tasks.length s) {i : Nat}
    (hgate : s.gate = true) (hlive : (s.worker i).isDone = false) : t.stage = .executing := by
  have hstage := h.stage
  rcases hsound with ⟨k, hclosed⟩ | hopened
  · cases hgate.symm.trans hclosed.gate
  · rcases hopened.stage with hs | ⟨failed, hs⟩ | ⟨failed, hs, hdone⟩
    · rw [hs] at hstage
      exact hstage
    · rw [hs] at hstage
      cases failed with
      | false => exact hstage
      | true => exact hstage.elim
    · cases hlive.symm.trans (hdone i)

theorem GateSound.gate_of_running {n i : Nat} (h : GateSound n s)
    (hworker : s.worker i = .running) : s.gate = true := by
  rcases h with ⟨k, hclosed⟩ | hopened
  · exact absurd hworker hclosed.not_running
  · exact hopened.gate

/-- Only the tasks have workers that are started. -/
theorem GateSound.lt_of_started {n i : Nat} (h : GateSound n s)
    (hworker : s.worker i ≠ .unstarted) : i < n := by
  by_contra hle
  rcases h with ⟨k, hclosed⟩ | hopened
  · have hk := hclosed.le
    exact hworker (hclosed.worker_eq.trans (if_neg (by omega)))
  · exact hworker ((hopened.worker i).mpr (Nat.le_of_not_lt hle))

/-- A worker goes on as the thread does. -/
theorem Refines.move {i : Nat} {w : Worker} {p : Phase} (h : Refines tasks s t) (hw : w.phase = p)
    (hcaught : w ≠ .finished none) {calls : List Nat} :
    Refines tasks { s with worker := update s.worker i w }
      { t with calls := calls, phase := update t.phase i p } := by
  refine ⟨h.stage, fun j => ?_, h.collected, fun j => ?_, h.full⟩
  · by_cases hj : j = i
    · subst hj
      show update t.phase j p j = (update s.worker j w j).phase
      rw [update_self, update_self, hw]
    · show update t.phase i p j = (update s.worker i w j).phase
      rw [update_of_ne _ _ hj, update_of_ne _ _ hj, h.phase]
  · by_cases hj : j = i
    · subst hj
      show update s.worker j w j ≠ _
      rwa [update_self]
    · show update s.worker i w j ≠ _
      rw [update_of_ne _ _ hj]
      exact h.caught j

/-- A step of the call with its gate is one without, or changes nothing there. -/
theorem Refines.step (h : Refines tasks s t) (hsound : GateSound tasks.length s)
    (hsmooth : Smooth s e) (hstep : GateStep tasks limits s e s') :
    Refines tasks s' t ∨ ∃ e' t', t.step tasks limits e' = some t' ∧ Refines tasks s' t' := by
  have hstage := h.stage
  cases hstep with
  | check hs =>
      rw [hs] at hstage
      refine .inr ⟨.check, { t with stage := checked tasks limits }, if_pos ?_,
        sameStage_checked, h.phase, h.collected, h.caught, ?_⟩
      · rw [show t.stage = .checking from hstage]
        rfl
      · intro hfull
        rcases gateChecked_cases tasks limits with hs | ⟨_, hs⟩
        all_goals cases hs.symm.trans hfull
  | @submit k hs hk =>
      rw [hs] at hstage
      have hunstarted : s.worker k = .unstarted := by
        rcases hsound with ⟨j, hclosed⟩ | hopened
        · obtain rfl := hclosed.count hs
          rw [hclosed.worker_eq, if_neg (lt_irrefl _)]
        · exact absurd hs hopened.not_submitting
      refine .inl ⟨hstage, fun i => ?_, h.collected, fun i => ?_, fun hfull => by cases hfull⟩
      · show _ = (update s.worker k .waiting i).phase
        by_cases hi : i = k
        · rw [hi, update_self, h.phase, hunstarted]
          rfl
        · rw [update_of_ne _ _ hi, h.phase]
      · show update s.worker k .waiting i ≠ _
        by_cases hi : i = k
        · rw [hi, update_self]
          exact Worker.noConfusion
        · rw [update_of_ne _ _ hi]
          exact h.caught i
  | submitRaises => exact absurd rfl hsmooth.1
  | openGate hs =>
      rw [hs] at hstage
      exact .inl ⟨hstage, h.phase, h.collected, h.caught, fun hfull => by cases hfull⟩
  | @pass i hgate hworker =>
      have hexec : t.stage = .executing :=
        h.executing hsound hgate (by rw [hworker]; rfl)
      have hi : i < tasks.length := hsound.lt_of_started (by rw [hworker]; exact Worker.noConfusion)
      refine .inr ⟨.call i, _, if_pos ⟨?_, hi, ?_⟩, h.move rfl Worker.noConfusion⟩
      · rw [hexec]
        rfl
      · rw [h.phase, hworker]
        rfl
  | @finish i result hworker =>
      have hexec : t.stage = .executing :=
        h.executing hsound (hsound.gate_of_running hworker) (by rw [hworker]; rfl)
      cases result with
      | none => exact absurd rfl (hsmooth.2 i)
      | some value =>
          obtain ⟨outcome, elapsed⟩ := value
          have hcaught : Worker.finished (some (outcome, elapsed)) ≠ .finished none := by
            intro heq
            cases heq
          refine .inr ⟨.finish i outcome elapsed, _, if_pos ⟨?_, ?_⟩, h.move rfl hcaught⟩
          · rw [hexec]
            rfl
          · rw [h.phase, hworker]
            rfl
  | @collect i value hs hnew hworker =>
      obtain ⟨outcome, elapsed⟩ := value
      rw [hs] at hstage
      have hi : i < tasks.length := hsound.lt_of_started (by rw [hworker]; exact Worker.noConfusion)
      refine .inr ⟨.collect i, { t with
        collected := t.collected ++ [(i, runWorkload tasks[i].name outcome elapsed)] }, ?_,
        ?_, h.phase, ?_, h.caught, fun hfull => by cases hs.symm.trans hfull⟩
      · simp only [Exec.step]
        rw [List.getElem?_eq_getElem hi, h.phase, hworker]
        refine if_pos ⟨?_, ?_⟩
        · rw [show t.stage = .executing from hstage]
          rfl
        · rw [h.collected]
          exact hnew
      · show SameStage s.stage t.stage
        rw [hs]
        exact hstage
      · rw [List.map_append, h.collected]
        rfl
  | collectRaises _ _ hworker => exact absurd hworker (h.caught _)
  | exhaust hs hall =>
      rw [hs] at hstage
      exact .inl ⟨hstage, h.phase, h.collected, h.caught, fun _ => hall⟩
  | @leave failed hs _ =>
      rw [hs] at hstage
      cases failed with
      | true => exact hstage.elim
      | false =>
          refine .inr ⟨.leave, { t with stage := .returned (t.collected.map Prod.snd) },
            if_pos ⟨?_, ?_⟩, ⟨_, rfl⟩, h.phase, h.collected, h.caught,
            fun hfull => by cases hfull⟩
          · rw [show t.stage = .executing from hstage]
            rfl
          · rw [← h.full hs, ← h.collected, List.length_map]

/-- **The gate leaves the execution as it is.** While nothing raises, a call with its gate
goes through the states of the call without. -/
theorem gated_refines (h : ((gated tasks limits).restrict Smooth).Reachable s) :
    ∃ t, (execution tasks limits).Reachable t ∧ Refines tasks s t := by
  induction h with
  | init hinit =>
      cases hinit
      exact ⟨Exec.start, .init rfl, rfl, fun _ => rfl, rfl, fun _ => Worker.noConfusion,
        fun hfull => by cases hfull⟩
  | step hreach hstep ih =>
      obtain ⟨t, ht, href⟩ := ih
      rcases href.step (GateSound.reachable hreach.of_restrict) hstep.1 hstep.2 with
        hsame | ⟨e', t', hstep', href'⟩
      · exact ⟨t, ht, hsame⟩
      · exact ⟨t', ht.step hstep', href'⟩

/-- A call that returns in such a run has the entry of each workload. -/
theorem gated_lossless (h : ((gated tasks limits).restrict Smooth).Reachable s)
    (hend : s.stage = .ended false) :
    ∃ t results, t.stage = .returned results ∧ t.collected.map Prod.fst = s.collected ∧
      Lossless tasks t results := by
  obtain ⟨t, ht, href⟩ := gated_refines h
  have hstage := href.stage
  rw [hend] at hstage
  obtain ⟨results, hresults⟩ := hstage
  exact ⟨t, results, hresults, href.collected, (Sound.reachable ht).lossless hresults⟩

end refinement

end SrxProbe.Deploy
