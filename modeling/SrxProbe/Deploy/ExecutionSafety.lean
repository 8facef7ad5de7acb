import Mathlib.Algebra.Order.BigOperators.Group.Finset
import SrxProbe.Deploy.Execution
import SrxProbe.Deploy.Preflight

/-!
# What a suite guarantees

Nothing is called when the checks refuse the list. When they pass, every call that has
returned has called each function once, and its results are one entry for each workload
in the order of completion. No state is stuck, and a run is as short as three steps for
each workload allow.
-/

namespace SrxProbe.Deploy

open SrxProbe.Lib SrxProbe.Generators

/-! ## Checks -/

/-- The list is too long, or the arguments of a workload are not valid. -/
def Rejected (tasks : List Task) (limits : WorkloadLimits) : Prop :=
  limits.maxWorkloads < tasks.length ∨ ∃ task ∈ tasks, ∃ err, validateTask task = .error err

/-- The command that the arguments of a workload are checked for. -/
def Task.command (task : Task) : Command :=
  if task.func.drop 3 = [] then task.args.cmd
  else (Command.ofName? (task.func.drop 3)).getD .http

/-- The exception that a list is rejected with: a `ValueError` if it is too long, or else
what the first workload is rejected with that is, a `ValueError` unless its arguments lack
an attribute or have a value of a wrong type. -/
def RejectedWith (tasks : List Task) (limits : WorkloadLimits) (err : PyErr) : Prop :=
  (limits.maxWorkloads < tasks.length ∧ isValueError err = true) ∨
    (tasks.length ≤ limits.maxWorkloads ∧ ∃ before task after, tasks = before ++ task :: after ∧
      (∀ t ∈ before, validateTask t = .ok ()) ∧ validateTask task = .error err ∧
      (Complete task.args task.command → isValueError err = true))

/-- A loop raises what its first turn that raises does. -/
theorem forM_error_iff {α : Type} {f : α → Except PyErr Unit} {l : List α} {err : PyErr} :
    l.forM f = .error err ↔ ∃ before a after, l = before ++ a :: after ∧
      (∀ b ∈ before, f b = .ok ()) ∧ f a = .error err := by
  induction l with
  | nil =>
      constructor
      · intro h
        cases h
      · rintro ⟨before, a, after, h, -⟩
        exact absurd h (by simp)
  | cons b l ih =>
      show (f b >>= fun _ => l.forM f) = .error err ↔ _
      cases hfirst : f b with
      | error err' =>
          constructor
          · intro h
            cases h
            exact ⟨[], b, l, rfl, List.forall_mem_nil _, hfirst⟩
          · rintro ⟨before, a, after, h, hbefore, ha⟩
            cases before with
            | nil =>
                obtain ⟨rfl, -⟩ := List.cons.inj h
                exact hfirst.symm.trans ha
            | cons b' before =>
                obtain ⟨rfl, -⟩ := List.cons.inj h
                rw [hbefore b List.mem_cons_self] at hfirst
                cases hfirst
      | ok u =>
          show l.forM f = .error err ↔ _
          rw [ih]
          constructor
          · rintro ⟨before, a, after, rfl, hbefore, ha⟩
            exact ⟨b :: before, a, after, rfl, List.forall_mem_cons.mpr ⟨hfirst, hbefore⟩, ha⟩
          · rintro ⟨before, a, after, h, hbefore, ha⟩
            cases before with
            | nil =>
                obtain ⟨rfl, -⟩ := List.cons.inj h
                cases hfirst.symm.trans ha
            | cons b' before =>
                obtain ⟨-, rfl⟩ := List.cons.inj h
                exact ⟨before, a, after, rfl, fun t ht => hbefore t (List.mem_cons_of_mem _ ht), ha⟩

/-- Complete arguments are rejected with a `ValueError`. -/
theorem only_validateTask {task : Task} (h : Complete task.args task.command) :
    OnlyRaises (isValueError · = true) (validateTask task) := by
  unfold validateTask
  split
  · unfold Task.command at h
    unfold validateNamed
    split at h
    · rename_i hnone
      rw [if_pos hnone]
      exact only_validateArgs h
    · rename_i hname
      rw [if_neg hname]
      exact only_validateArgs h
  · exact .ok ()

section checks

variable {tasks : List Task} {limits : WorkloadLimits} {err : PyErr}

theorem boundedInt_length (hne : tasks ≠ []) (h : tasks.length ≤ limits.maxWorkloads) :
    boundedInt "concurrent workloads".toList (.int tasks.length) limits.maxWorkloads 1 =
      .ok tasks.length := by
  have hpos := List.length_pos_of_ne_nil hne
  exact boundedInt_ok (by omega) h

theorem checkSuite_error_iff (hne : tasks ≠ []) (hlen : tasks.length ≤ limits.maxWorkloads) :
    checkSuite tasks limits = .error err ↔ RejectedWith tasks limits err := by
  unfold checkSuite
  rw [boundedInt_length hne hlen, ok_bind, forM_error_iff]
  unfold RejectedWith
  constructor
  · rintro ⟨before, task, after, htasks, hbefore, htask⟩
    exact .inr ⟨hlen, before, task, after, htasks, hbefore, htask,
      fun hcomplete => only_validateTask hcomplete err htask⟩
  · rintro (⟨hlong, -⟩ | ⟨-, before, task, after, htasks, hbefore, htask, -⟩)
    · omega
    · exact ⟨before, task, after, htasks, hbefore, htask⟩

/-- A list that is too long is refused with a `ValueError`. -/
theorem checkSuite_long (h : limits.maxWorkloads < tasks.length) :
    ∃ err, checkSuite tasks limits = .error err ∧ isValueError err = true := by
  unfold checkSuite boundedInt
  simp only
  rw [if_neg fun hrange => absurd hrange.2 (Int.not_le.mpr h)]
  exact ⟨_, rfl, rfl⟩

/-- An empty list is never rejected, as the ceilings are positive. -/
theorem Rejected.ne_nil (h : Rejected tasks limits) : tasks ≠ [] := by
  rintro rfl
  rcases h with h | ⟨task, htask, -⟩
  · have hpos := limits.positive limits.maxWorkloads (by simp)
    rw [List.length_nil] at h
    omega
  · cases htask

theorem exists_first {α : Type} {f : α → Except PyErr Unit} {l : List α}
    (h : ∃ a ∈ l, ∃ err, f a = .error err) : ∃ err, l.forM f = .error err := by
  cases hl : l.forM f with
  | error err => exact ⟨err, rfl⟩
  | ok u =>
      obtain ⟨a, ha, err, herr⟩ := h
      cases (forM_ok_iff.mp hl a ha).symm.trans herr

theorem checkSuite_of_rejected (h : Rejected tasks limits) :
    ∃ err, checkSuite tasks limits = .error err ∧ RejectedWith tasks limits err := by
  have hne := h.ne_nil
  by_cases hlong : limits.maxWorkloads < tasks.length
  · obtain ⟨err, hcheck, hvalue⟩ := checkSuite_long hlong
    exact ⟨err, hcheck, .inl ⟨hlong, hvalue⟩⟩
  · have hlen : tasks.length ≤ limits.maxWorkloads := Int.not_lt.mp hlong
    obtain ⟨err, hfirst⟩ := exists_first (h.resolve_left hlong)
    have hcheck : checkSuite tasks limits = .error err := by
      unfold checkSuite
      rw [boundedInt_length hne hlen, ok_bind, hfirst]
    exact ⟨err, hcheck, (checkSuite_error_iff hne hlen).mp hcheck⟩

theorem checked_of_rejected (h : Rejected tasks limits) :
    ∃ err, checked tasks limits = .raised err ∧ RejectedWith tasks limits err := by
  obtain ⟨err, hcheck, hwith⟩ := checkSuite_of_rejected h
  refine ⟨err, ?_, hwith⟩
  unfold checked
  rw [List.isEmpty_eq_false_iff.mpr h.ne_nil, if_neg Bool.false_ne_true, hcheck]

theorem checked_of_not_rejected (h : ¬ Rejected tasks limits) :
    tasks = [] ∧ checked tasks limits = .returned [] ∨ checked tasks limits = .executing := by
  unfold checked
  by_cases hne : tasks = []
  · left
    subst hne
    exact ⟨rfl, rfl⟩
  · right
    have hno : checkSuite tasks limits = .ok () := by
      have hlen : tasks.length ≤ limits.maxWorkloads := Int.not_lt.mp fun hlong => h (.inl hlong)
      cases hcheck : checkSuite tasks limits with
      | ok u => rfl
      | error err =>
          rcases (checkSuite_error_iff hne hlen).mp hcheck with
            ⟨hlong, -⟩ | ⟨-, before, task, after, rfl, -, herr, -⟩
          · exact absurd (.inl hlong) h
          · exact absurd (.inr ⟨task, by simp, err, herr⟩) h
    rw [List.isEmpty_eq_false_iff.mpr hne, if_neg Bool.false_ne_true, hno]

end checks

/-! ## Steps -/

section steps

variable {tasks : List Task} {limits : WorkloadLimits} {s s' : Exec} {e : Event}

/-- What a step does, by its label. -/
theorem step_cases (h : s.step tasks limits e = some s') :
    (e = .check ∧ s.stage.isChecking = true ∧ s' = { s with stage := checked tasks limits }) ∨
    (∃ i, e = .call i ∧ s.stage.isExecuting = true ∧ i < tasks.length ∧
      (s.phase i).isQueued = true ∧
      s' = { s with calls := s.calls ++ [i], phase := update s.phase i .running }) ∨
    (∃ i outcome elapsed, e = .finish i outcome elapsed ∧ s.stage.isExecuting = true ∧
      (s.phase i).isRunning = true ∧
      s' = { s with phase := update s.phase i (.finished outcome elapsed) }) ∨
    (∃ i task outcome elapsed, e = .collect i ∧ s.stage.isExecuting = true ∧
      tasks[i]? = some task ∧ s.phase i = .finished outcome elapsed ∧
      i ∉ s.collected.map Prod.fst ∧
      s' = { s with
        collected := s.collected ++ [(i, runWorkload task.name outcome elapsed)] }) ∨
    (e = .leave ∧ s.stage.isExecuting = true ∧ s.collected.length = tasks.length ∧
      s' = { s with stage := .returned (s.collected.map Prod.snd) }) := by
  cases e with
  | check =>
      simp only [Exec.step] at h
      split at h
      · rename_i hstage
        cases h
        exact .inl ⟨rfl, hstage, rfl⟩
      · cases h
  | call i =>
      simp only [Exec.step] at h
      split at h
      · rename_i hguard
        cases h
        exact .inr (.inl ⟨i, rfl, hguard.1, hguard.2.1, hguard.2.2, rfl⟩)
      · cases h
  | finish i outcome elapsed =>
      simp only [Exec.step] at h
      split at h
      · rename_i hguard
        cases h
        exact .inr (.inr (.inl ⟨i, outcome, elapsed, rfl, hguard.1, hguard.2, rfl⟩))
      · cases h
  | collect i =>
      simp only [Exec.step] at h
      split at h
      · rename_i task outcome elapsed htask hphase
        split at h
        · rename_i hguard
          cases h
          exact .inr (.inr (.inr (.inl ⟨i, task, outcome, elapsed, rfl, hguard.1, htask, hphase,
            hguard.2, rfl⟩)))
        · cases h
      · cases h
  | leave =>
      simp only [Exec.step] at h
      split at h
      · rename_i hguard
        cases h
        exact .inr (.inr (.inr (.inr ⟨rfl, hguard.1, hguard.2, rfl⟩)))
      · cases h

/-- What the threads and the collected futures have in common with the calls. -/
structure Threads (tasks : List Task) (s : Exec) : Prop where
  callsNodup : s.calls.Nodup
  callsLt : ∀ i ∈ s.calls, i < tasks.length
  calls : ∀ i, i ∈ s.calls ↔ (s.phase i).isQueued = false
  collectedNodup : (s.collected.map Prod.fst).Nodup
  collected : ∀ entry ∈ s.collected, ∃ task outcome elapsed, tasks[entry.1]? = some task ∧
    s.phase entry.1 = .finished outcome elapsed ∧
    entry.2 = runWorkload task.name outcome elapsed

/-- What holds of every call of `run_concurrently`. -/
structure Sound (tasks : List Task) (limits : WorkloadLimits) (s : Exec) : Prop where
  threads : Threads tasks s
  checking : s.stage = .checking → s.calls = [] ∧ s.collected = []
  executing : s.stage = .executing → checked tasks limits = .executing
  raised : ∀ err, s.stage = .raised err → s.calls = [] ∧ checked tasks limits = .raised err
  returned : ∀ results, s.stage = .returned results → ¬ Rejected tasks limits ∧
    s.collected.length = tasks.length ∧ results = s.collected.map Prod.snd

theorem sound_start : Sound tasks limits Exec.start where
  threads :=
    { callsNodup := List.nodup_nil
      callsLt := List.forall_mem_nil _
      calls := fun _ => iff_of_false List.not_mem_nil Bool.noConfusion
      collectedNodup := List.nodup_nil
      collected := List.forall_mem_nil _ }
  checking := fun _ => ⟨rfl, rfl⟩
  executing := by rintro ⟨⟩
  raised := by rintro err ⟨⟩
  returned := by rintro results ⟨⟩

theorem Stage.eq_checking {stage : Stage} (h : stage.isChecking = true) : stage = .checking := by
  cases stage with
  | checking => rfl
  | executing => cases h
  | raised err => cases h
  | returned results => cases h

theorem Stage.eq_executing {stage : Stage} (h : stage.isExecuting = true) :
    stage = .executing := by
  cases stage with
  | executing => rfl
  | checking => cases h
  | raised err => cases h
  | returned results => cases h

/-- While a suite executes, only the threads matter. -/
theorem Threads.sound (h : Threads tasks s) (hstage : s.stage = .executing)
    (hchecked : checked tasks limits = .executing) : Sound tasks limits s where
  threads := h
  checking := by
    intro hother
    cases hstage.symm.trans hother
  executing := fun _ => hchecked
  raised := by
    intro err hother
    cases hstage.symm.trans hother
  returned := by
    intro results hother
    cases hstage.symm.trans hother

theorem Threads.call {i : Nat} (h : Threads tasks s) (hi : i < tasks.length)
    (hqueued : (s.phase i).isQueued = true) :
    Threads tasks { s with calls := s.calls ++ [i], phase := update s.phase i .running } := by
  have hnew : i ∉ s.calls := by
    rw [h.calls, hqueued]
    exact Bool.noConfusion
  refine ⟨List.nodup_append.mpr ⟨h.callsNodup, List.nodup_singleton i, ?_⟩, ?_, ?_,
    h.collectedNodup, ?_⟩
  · intro j hj k hk
    rw [List.mem_singleton.mp hk]
    rintro rfl
    exact hnew hj
  · intro j hj
    rcases List.mem_append.mp hj with hj | hj
    · exact h.callsLt j hj
    · rw [List.mem_singleton.mp hj]
      exact hi
  · intro j
    show j ∈ s.calls ++ [i] ↔ (update s.phase i .running j).isQueued = false
    by_cases hj : j = i
    · subst hj
      rw [update_self]
      exact iff_of_true (by simp) rfl
    · rw [update_of_ne _ _ hj, ← h.calls j, List.mem_append, List.mem_singleton]
      exact or_iff_left hj
  · intro entry hentry
    obtain ⟨task, outcome, elapsed, htask, hphase, hresult⟩ := h.collected entry hentry
    refine ⟨task, outcome, elapsed, htask, ?_, hresult⟩
    have hne : entry.1 ≠ i := by
      intro heq
      rw [heq] at hphase
      rw [hphase] at hqueued
      cases hqueued
    exact (update_of_ne s.phase .running hne).trans hphase

theorem Threads.finish {i : Nat} (outcome : Outcome) (elapsed : Time) (h : Threads tasks s)
    (hrunning : (s.phase i).isRunning = true) :
    Threads tasks { s with phase := update s.phase i (.finished outcome elapsed) } := by
  refine ⟨h.callsNodup, h.callsLt, ?_, h.collectedNodup, ?_⟩
  · intro j
    show j ∈ s.calls ↔ (update s.phase i (.finished outcome elapsed) j).isQueued = false
    by_cases hj : j = i
    · subst hj
      rw [update_self, h.calls j]
      cases hphase : s.phase j with
      | queued =>
          rw [hphase] at hrunning
          cases hrunning
      | running => exact Iff.rfl
      | finished _ _ => exact Iff.rfl
    · rw [update_of_ne _ _ hj]
      exact h.calls j
  · intro entry hentry
    obtain ⟨task, outcome', elapsed', htask, hphase, hresult⟩ := h.collected entry hentry
    refine ⟨task, outcome', elapsed', htask, ?_, hresult⟩
    have hne : entry.1 ≠ i := by
      intro heq
      rw [heq] at hphase
      rw [hphase] at hrunning
      cases hrunning
    exact (update_of_ne s.phase _ hne).trans hphase

theorem Threads.collect {i : Nat} {task : Task} {outcome : Outcome} {elapsed : Time}
    (h : Threads tasks s) (htask : tasks[i]? = some task)
    (hphase : s.phase i = .finished outcome elapsed) (hnew : i ∉ s.collected.map Prod.fst) :
    Threads tasks { s with
      collected := s.collected ++ [(i, runWorkload task.name outcome elapsed)] } := by
  refine ⟨h.callsNodup, h.callsLt, h.calls, ?_, ?_⟩
  · rw [List.map_append]
    refine List.nodup_append.mpr ⟨h.collectedNodup, List.nodup_singleton i, ?_⟩
    intro j hj k hk
    rw [List.mem_singleton.mp hk]
    rintro rfl
    exact hnew hj
  · intro entry hentry
    rcases List.mem_append.mp hentry with hentry | hentry
    · exact h.collected entry hentry
    · rw [List.mem_singleton.mp hentry]
      exact ⟨task, outcome, elapsed, htask, hphase, rfl⟩

/-- An empty list is all that the checks return at once for. -/
theorem checked_returned {results : List WorkloadResult}
    (h : checked tasks limits = .returned results) : tasks = [] ∧ results = [] := by
  unfold checked at h
  split at h
  · rename_i hempty
    cases h
    exact ⟨List.isEmpty_iff.mp hempty, rfl⟩
  · split at h
    · cases h
    · cases h

theorem not_rejected_of_checked (h : checked tasks limits = .executing) :
    ¬ Rejected tasks limits := by
  intro hrejected
  obtain ⟨err, herr, -⟩ := checked_of_rejected hrejected
  cases h.symm.trans herr

theorem Sound.step (h : Sound tasks limits s) (hstep : s.step tasks limits e = some s') :
    Sound tasks limits s' := by
  rcases step_cases hstep with ⟨rfl, hstage, rfl⟩ | ⟨i, rfl, hstage, hi, hqueued, rfl⟩ |
    ⟨i, outcome, elapsed, rfl, hstage, hrunning, rfl⟩ |
    ⟨i, task, outcome, elapsed, rfl, hstage, htask, hphase, hnew, rfl⟩ | ⟨rfl, hstage, hlen, rfl⟩
  · obtain ⟨hcalls, hcollected⟩ := h.checking (Stage.eq_checking hstage)
    refine ⟨⟨h.threads.callsNodup, h.threads.callsLt, h.threads.calls, h.threads.collectedNodup,
      h.threads.collected⟩, fun _ => ⟨hcalls, hcollected⟩, id, fun _ herr => ⟨hcalls, herr⟩, ?_⟩
    intro results hreturned
    obtain ⟨rfl, rfl⟩ := checked_returned hreturned
    exact ⟨fun hrejected => hrejected.ne_nil rfl, by simp [hcollected], by simp [hcollected]⟩
  · have hexec := Stage.eq_executing hstage
    exact (h.threads.call hi hqueued).sound hexec (h.executing hexec)
  · have hexec := Stage.eq_executing hstage
    exact (h.threads.finish outcome elapsed hrunning).sound hexec (h.executing hexec)
  · have hexec := Stage.eq_executing hstage
    exact (h.threads.collect htask hphase hnew).sound hexec (h.executing hexec)
  · have hchecked := h.executing (Stage.eq_executing hstage)
    refine ⟨⟨h.threads.callsNodup, h.threads.callsLt, h.threads.calls, h.threads.collectedNodup,
      h.threads.collected⟩, ?_, ?_, ?_, ?_⟩
    · rintro ⟨⟩
    · rintro ⟨⟩
    · rintro err ⟨⟩
    · rintro results ⟨⟩
      exact ⟨not_rejected_of_checked hchecked, hlen, rfl⟩

theorem sound_inductive : (execution tasks limits).Inductive (Sound tasks limits) where
  init := by
    rintro s rfl
    exact sound_start
  step := fun _ _ _ h hstep => h.step hstep

theorem Sound.reachable (h : (execution tasks limits).Reachable s) : Sound tasks limits s :=
  sound_inductive.invariant s h

end steps

/-! ## Results -/

/-- What a call that has returned leaves behind: each function was called once, there is
one entry for each workload, in the order of completion, and the exit code of the suite
is 0 when each of the entries' is. -/
structure Lossless (tasks : List Task) (s : Exec) (results : List WorkloadResult) : Prop where
  once : s.calls.Perm (List.range tasks.length)
  entries : ∃ order : List Nat, order.Perm (List.range tasks.length) ∧
    List.Forall₂ (fun i result => ∃ task outcome elapsed, tasks[i]? = some task ∧
      s.phase i = .finished outcome elapsed ∧ EntryOf task.name outcome result) order results
  names : (results.map WorkloadResult.name).Perm (tasks.map Task.name)
  status : suiteStatus results = 0 ↔ ∀ result ∈ results, result.returncode = 0

theorem suiteStatus_eq_zero {results : List WorkloadResult} :
    suiteStatus results = 0 ↔ ∀ result ∈ results, result.returncode = 0 := by
  unfold suiteStatus
  simp only
  by_cases hall : ∀ result ∈ results, result.returncode = 0
  · have hnone : results.filter (fun result => decide (result.returncode ≠ 0)) = [] := by
      rw [List.filter_eq_nil_iff]
      intro result hresult
      simp [hall result hresult]
    rw [hnone]
    exact iff_of_true rfl hall
  · have hsome : results.filter (fun result => decide (result.returncode ≠ 0)) ≠ [] := by
      intro hnil
      apply hall
      intro result hresult
      simpa using List.filter_eq_nil_iff.mp hnil result hresult
    rw [List.isEmpty_eq_false_iff.mpr hsome]
    exact iff_of_false (by decide) hall

/-- As many numbers below a bound as there are, all different. -/
theorem perm_range {l : List Nat} {n : Nat} (hnodup : l.Nodup) (hlt : ∀ i ∈ l, i < n)
    (hlen : n ≤ l.length) : l.Perm (List.range n) := by
  have hsub : l.Subperm (List.range n) :=
    List.subperm_of_subset hnodup fun i hi => List.mem_range.mpr (hlt i hi)
  exact hsub.perm_of_length_le (by rw [List.length_range]; exact hlen)

section results

variable {tasks : List Task} {limits : WorkloadLimits} {s : Exec}

theorem Threads.lt_of_collected (h : Threads tasks s) {i : Nat}
    (hi : i ∈ s.collected.map Prod.fst) : i < tasks.length := by
  obtain ⟨entry, hentry, rfl⟩ := List.mem_map.mp hi
  obtain ⟨task, -, -, htask, -⟩ := h.collected entry hentry
  exact (List.getElem?_eq_some_iff.mp htask).1

theorem Threads.perm_collected (h : Threads tasks s) (hlen : s.collected.length = tasks.length) :
    (s.collected.map Prod.fst).Perm (List.range tasks.length) :=
  perm_range h.collectedNodup (fun _ => h.lt_of_collected) (by rw [List.length_map, hlen])

/-- Each function whose result is collected was called, and none twice. -/
theorem Threads.perm_calls (h : Threads tasks s) (hlen : s.collected.length = tasks.length) :
    s.calls.Perm (List.range tasks.length) := by
  rw [List.perm_ext_iff_of_nodup h.callsNodup List.nodup_range]
  intro i
  rw [List.mem_range]
  constructor
  · exact h.callsLt i
  · intro hi
    have hmem := (h.perm_collected hlen).symm.subset (List.mem_range.mpr hi)
    obtain ⟨entry, hentry, rfl⟩ := List.mem_map.mp hmem
    obtain ⟨-, outcome, elapsed, -, hphase, -⟩ := h.collected entry hentry
    rw [h.calls, hphase]
    rfl

theorem range_map_name (tasks : List Task) :
    (List.range tasks.length).map (fun i => (tasks[i]?).map Task.name) =
      (tasks.map Task.name).map some := by
  apply List.ext_getElem
  · simp
  · intro i hi hi'
    have hlt : i < tasks.length := by simpa using hi'
    simp [List.getElem?_eq_getElem hlt]

theorem Sound.lossless (h : Sound tasks limits s) {results : List WorkloadResult}
    (hreturned : s.stage = .returned results) : Lossless tasks s results := by
  obtain ⟨-, hlen, rfl⟩ := h.returned results hreturned
  have hperm := h.threads.perm_collected hlen
  refine ⟨h.threads.perm_calls hlen, ⟨_, hperm, ?_⟩, ?_, suiteStatus_eq_zero⟩
  · rw [List.forall₂_map_left_iff, List.forall₂_map_right_iff, List.forall₂_same]
    intro entry hentry
    obtain ⟨task, outcome, elapsed, htask, hphase, hresult⟩ := h.threads.collected entry hentry
    exact ⟨task, outcome, elapsed, htask, hphase, hresult ▸ entryOf_runWorkload _ _ _⟩
  · have hnames : ((s.collected.map Prod.snd).map WorkloadResult.name).map some =
        (s.collected.map Prod.fst).map fun i => (tasks[i]?).map Task.name := by
      rw [List.map_map, List.map_map, List.map_map]
      apply List.map_congr_left
      intro entry hentry
      obtain ⟨task, outcome, elapsed, htask, -, hresult⟩ := h.threads.collected entry hentry
      show some entry.2.name = (tasks[entry.1]?).map Task.name
      rw [htask, hresult, (entryOf_runWorkload task.name outcome elapsed).name]
      rfl
    have hall := hperm.map fun i => (tasks[i]?).map Task.name
    rw [← hnames, range_map_name] at hall
    exact (List.map_perm_map_iff (Option.some_injective _)).mp hall

end results

/-! ## Progress -/

/-- The steps that are left to the thread of a workload. -/
def Phase.weight : Phase → Nat
  | queued => 2
  | running => 1
  | finished _ _ => 0

/-- The steps that are left to a call on `n` workloads. -/
def Exec.remaining (n : Nat) (s : Exec) : Nat :=
  match s.stage with
  | .checking => 3 * n + 2
  | .executing => (∑ i ∈ Finset.range n, (s.phase i).weight) + (n - s.collected.length) + 1
  | .raised _ => 0
  | .returned _ => 0

section progress

variable {tasks : List Task} {limits : WorkloadLimits} {s s' : Exec} {e : Event}

theorem Stage.not_ended {stage : Stage} (hno : ∀ err, stage ≠ .raised err)
    (hno' : ∀ results, stage ≠ .returned results) : stage = .checking ∨ stage = .executing := by
  cases stage with
  | checking => exact .inl rfl
  | executing => exact .inr rfl
  | raised err => exact absurd rfl (hno err)
  | returned results => exact absurd rfl (hno' results)

theorem weight_update_lt {phase : Nat → Phase} {n i : Nat} {p : Phase} (hi : i < n)
    (hlt : p.weight < (phase i).weight) :
    ∑ j ∈ Finset.range n, (update phase i p j).weight <
      ∑ j ∈ Finset.range n, (phase j).weight := by
  apply Finset.sum_lt_sum
  · intro j _
    by_cases hj : j = i
    · rw [hj, update_self]
      exact hlt.le
    · rw [update_of_ne _ _ hj]
  · refine ⟨i, Finset.mem_range.mpr hi, ?_⟩
    rw [update_self]
    exact hlt

theorem sum_weight_le (phase : Nat → Phase) (n : Nat) :
    ∑ i ∈ Finset.range n, (phase i).weight ≤ 2 * n := by
  calc ∑ i ∈ Finset.range n, (phase i).weight ≤ ∑ _i ∈ Finset.range n, 2 := by
        apply Finset.sum_le_sum
        intro i _
        cases phase i with
        | queued => exact le_rfl
        | running => exact Nat.le_succ 1
        | finished _ _ => exact Nat.zero_le 2
    _ = 2 * n := by simp [Nat.mul_comm]

theorem Threads.length_collected_le (h : Threads tasks s) :
    s.collected.length ≤ tasks.length := by
  have hsub : (s.collected.map Prod.fst).Subperm (List.range tasks.length) :=
    List.subperm_of_subset h.collectedNodup fun i hi => List.mem_range.mpr (h.lt_of_collected hi)
  have hle := hsub.length_le
  rwa [List.length_map, List.length_range] at hle

theorem checked_ne_checking : checked tasks limits ≠ .checking := by
  unfold checked
  split
  · rintro ⟨⟩
  · split
    · rintro ⟨⟩
    · rintro ⟨⟩

theorem Phase.weight_of_queued {p : Phase} (h : p.isQueued = true) : p.weight = 2 := by
  cases p with
  | queued => rfl
  | running => cases h
  | finished _ _ => cases h

theorem Phase.weight_of_running {p : Phase} (h : p.isRunning = true) : p.weight = 1 := by
  cases p with
  | running => rfl
  | queued => cases h
  | finished _ _ => cases h

/-- Every step of a call brings it closer to its end. -/
theorem Sound.remaining_lt (h : Sound tasks limits s) (hstep : s.step tasks limits e = some s') :
    s'.remaining tasks.length < s.remaining tasks.length := by
  rcases step_cases hstep with ⟨rfl, hstage, rfl⟩ | ⟨i, rfl, hstage, hi, hqueued, rfl⟩ |
    ⟨i, outcome, elapsed, rfl, hstage, hrunning, rfl⟩ |
    ⟨i, task, outcome, elapsed, rfl, hstage, htask, hphase, hnew, rfl⟩ | ⟨rfl, hstage, hlen, rfl⟩
  -- ahead are at most two steps of each thread, one collection each, and the return
  · have hsum := sum_weight_le s.phase tasks.length
    unfold Exec.remaining
    rw [Stage.eq_checking hstage]
    simp only
    split
    · rename_i hchecking
      exact absurd hchecking checked_ne_checking
    · omega
    · omega
    · omega
  · have hexec := Stage.eq_executing hstage
    have hlt : ∑ j ∈ Finset.range tasks.length, (update s.phase i .running j).weight <
        ∑ j ∈ Finset.range tasks.length, (s.phase j).weight :=
      weight_update_lt hi (by rw [Phase.weight_of_queued hqueued]; decide)
    simp only [Exec.remaining, hexec]
    omega
  · have hexec := Stage.eq_executing hstage
    have hi : i < tasks.length := by
      apply h.threads.callsLt
      rw [h.threads.calls]
      cases hphase : s.phase i with
      | queued =>
          rw [hphase] at hrunning
          cases hrunning
      | running => rfl
      | finished _ _ => rfl
    have hlt : ∑ j ∈ Finset.range tasks.length,
        (update s.phase i (.finished outcome elapsed) j).weight <
        ∑ j ∈ Finset.range tasks.length, (s.phase j).weight :=
      weight_update_lt hi (by rw [Phase.weight_of_running hrunning]; exact Nat.zero_lt_one)
    simp only [Exec.remaining, hexec]
    omega
  · have hexec := Stage.eq_executing hstage
    -- the weights stay, and one future less is left to collect
    have hroom := (h.threads.collect htask hphase hnew).length_collected_le
    simp only [List.length_append, List.length_singleton] at hroom
    simp only [Exec.remaining, hexec, List.length_append, List.length_singleton]
    omega
  · simp only [Exec.remaining, Stage.eq_executing hstage]
    exact Nat.succ_pos _

/-- A call that has not ended has a step to take, as the functions end in some way. -/
theorem Sound.exists_step (h : Sound tasks limits s) (hno : ∀ err, s.stage ≠ .raised err)
    (hno' : ∀ results, s.stage ≠ .returned results) : ∃ e s', s.step tasks limits e = some s' := by
  rcases Stage.not_ended hno hno' with hstage | hstage
  · refine ⟨.check, _, if_pos ?_⟩
    rw [hstage]
    rfl
  · have hexec : s.stage.isExecuting = true := by
      rw [hstage]
      rfl
    by_cases hall : ∀ i < tasks.length, i ∈ s.collected.map Prod.fst
    · have hlen : s.collected.length = tasks.length := by
        have hsub : (List.range tasks.length).Subperm (s.collected.map Prod.fst) :=
          List.subperm_of_subset List.nodup_range fun i hi => hall i (List.mem_range.mp hi)
        have hge := hsub.length_le
        rw [List.length_range, List.length_map] at hge
        exact le_antisymm h.threads.length_collected_le hge
      exact ⟨.leave, _, if_pos ⟨hexec, hlen⟩⟩
    · push Not at hall
      obtain ⟨i, hi, hnew⟩ := hall
      cases hphase : s.phase i with
      | queued =>
          refine ⟨.call i, _, if_pos ⟨hexec, hi, ?_⟩⟩
          rw [hphase]
          rfl
      | running =>
          refine ⟨.finish i (.returned (.value (.int 0))) 0, _, if_pos ⟨hexec, ?_⟩⟩
          rw [hphase]
          rfl
      | finished outcome elapsed =>
          refine ⟨.collect i, { s with
            collected := s.collected ++ [(i, runWorkload tasks[i].name outcome elapsed)] }, ?_⟩
          simp only [Exec.step]
          rw [List.getElem?_eq_getElem hi, hphase]
          exact if_pos ⟨hexec, hnew⟩

/-- A run has at most three steps for each workload, and two of the call itself. -/
theorem run_length_le {events : List Event}
    (h : (execution tasks limits).Run Exec.start events s) :
    events.length ≤ 3 * tasks.length + 2 := by
  have hbound : Sound tasks limits s ∧
      events.length + s.remaining tasks.length ≤ 3 * tasks.length + 2 := by
    refine TSys.Run.induct (P := fun events s => Sound tasks limits s ∧
      events.length + s.remaining tasks.length ≤ 3 * tasks.length + 2) ?_ ?_ h
    · exact ⟨sound_start, by simp [Exec.remaining, Exec.start]⟩
    · rintro events s e s' - ⟨hsound, hle⟩ hstep
      have hlt := hsound.remaining_lt hstep
      refine ⟨hsound.step hstep, ?_⟩
      rw [List.length_append, List.length_singleton]
      omega
  omega

end progress

/-! ## The suite -/

/-- The call returns in every run: a state that has not ended has a step to take, a function
that is running may end in whatever way it does, and no run has more than three steps for
each workload, and two of the call itself. -/
def Ends (tasks : List Task) (limits : WorkloadLimits) : Prop :=
  (∀ s, (execution tasks limits).Reachable s → (∀ err, s.stage ≠ .raised err) →
    (∀ results, s.stage ≠ .returned results) → ∃ e s', s.step tasks limits e = some s') ∧
  (∀ s, (execution tasks limits).Reachable s → s.stage.isExecuting = true →
    ∀ i, (s.phase i).isRunning = true → ∀ outcome elapsed,
      ∃ s', s.step tasks limits (.finish i outcome elapsed) = some s') ∧
  ∀ s events, (execution tasks limits).Run Exec.start events s →
    events.length ≤ 3 * tasks.length + 2

/-- **A suite is all or nothing at its checks, and lossless afterwards.** A rejected list
raises before any function is called. Every other list returns, with each function called
once and one entry for each workload. -/
theorem suite_all_or_nothing (tasks : List Task) (limits : WorkloadLimits) :
    (Rejected tasks limits → ∃ err, RejectedWith tasks limits err ∧
      Exec.start.step tasks limits .check = some { Exec.start with stage := .raised err } ∧
      ∀ s, (execution tasks limits).Reachable s →
        s.calls = [] ∧ (s.stage = .checking ∨ s.stage = .raised err)) ∧
    (¬ Rejected tasks limits → Ends tasks limits ∧
      ∀ s, (execution tasks limits).Reachable s → (∀ err, s.stage ≠ .raised err) ∧
        ∀ results, s.stage = .returned results → Lossless tasks s results) := by
  constructor
  · intro hrejected
    obtain ⟨err, hchecked, hwith⟩ := checked_of_rejected hrejected
    refine ⟨err, hwith, ?_, ?_⟩
    · show some { Exec.start with stage := checked tasks limits } = _
      rw [hchecked]
    · intro s hs
      have hsound := Sound.reachable hs
      cases hstage : s.stage with
      | checking => exact ⟨(hsound.checking hstage).1, .inl rfl⟩
      | executing => cases (hsound.executing hstage).symm.trans hchecked
      | raised err' =>
          obtain ⟨hcalls, hraised⟩ := hsound.raised err' hstage
          cases hraised.symm.trans hchecked
          exact ⟨hcalls, .inr rfl⟩
      | returned results => exact absurd hrejected (hsound.returned results hstage).1
  · intro haccepted
    refine ⟨⟨fun s hs => (Sound.reachable hs).exists_step, ?_, fun s events => run_length_le⟩, ?_⟩
    · exact fun s _ hexec i hrunning _ _ => ⟨_, if_pos ⟨hexec, hrunning⟩⟩
    intro s hs
    have hsound := Sound.reachable hs
    refine ⟨?_, fun results => hsound.lossless⟩
    intro err hraised
    have hchecked := (hsound.raised err hraised).2
    rcases checked_of_not_rejected haccepted with ⟨-, hreturned⟩ | hexecuting
    · cases hreturned.symm.trans hchecked
    · cases hexecuting.symm.trans hchecked

/-- A scan whose namespace has no number of ports, and one with a number that is too low. -/
def barScans : List Task :=
  [⟨"scan".toList, "do_scan".toList, ⟨.scan, fun _ => none, none⟩⟩,
    ⟨"scan-0".toList, "do_scan".toList,
      ⟨.scan, update (fun _ => none) "max_ports".toList (some (.int 0)), none⟩⟩]

/-- The second scan is rejected with a `ValueError`, but the suite raises the
`AttributeError` of the first one. -/
theorem suite_attribute_error :
    (∃ task ∈ barScans, ∃ message, validateTask task = .error (.valueError message)) ∧
      ∃ s, (execution barScans defaultLimits).Reachable s ∧ s.stage = .raised .attributeError := by
  have hchecked : checked barScans defaultLimits = .raised .attributeError := rfl
  constructor
  · exact ⟨_, List.mem_cons_of_mem _ List.mem_cons_self, _, rfl⟩
  · refine ⟨{ Exec.start with stage := checked barScans defaultLimits }, ?_, hchecked⟩
    have hstart : (execution barScans defaultLimits).Reachable Exec.start := .init rfl
    have hstep : Exec.start.step barScans defaultLimits .check =
        some { Exec.start with stage := checked barScans defaultLimits } := rfl
    exact hstart.step hstep

end SrxProbe.Deploy
