import Mathlib.Data.Char
import Mathlib.Data.List.Lex
import SrxProbe.Deploy.ExecutionSafety
import SrxProbe.Deploy.Preflight
import SrxProbe.Lib.Iterable

/-!
# The summary of a suite

`do_all` executes the suite that `build_all_workloads` builds, and prints a line for each
result, in the order of their names. A suite that was built passes the checks of
`run_concurrently`, and any outcomes of its functions are among the results it can return.
-/

namespace SrxProbe.Deploy

open SrxProbe.Lib SrxProbe.Generators

/-! ## Texts -/

/-- `print(text)`. -/
def printed (text : PyStr) : PyStr := text ++ ['\n']

/-- `"=" * 70`. -/
def rule : PyStr := List.replicate 70 '='

/-- `hdr`. -/
def hdr (title : PyStr) : PyStr := printed ('\n' :: (rule ++ '\n' :: (title ++ '\n' :: rule)))

/-- A heading, and what is printed behind it. -/
theorem hdr_append (title rest : PyStr) : hdr title ++ rest =
    '\n' :: (rule ++ '\n' :: (title ++ '\n' :: (rule ++ '\n' :: rest))) := by
  simp only [hdr, printed, List.cons_append, List.append_assoc, List.nil_append]

/-- The nearest integer, and the even one of two. -/
def roundHalfEven (x : Rat) : Int :=
  let n := x.floor
  let rest := x - n
  if rest < 1 / 2 then n
  else if 1 / 2 < rest then n + 1
  else if n % 2 = 0 then n
  else n + 1

/-- `f"{x:.1f}"`. -/
def tenthsText (x : Rat) : PyStr :=
  let tenths := (roundHalfEven (10 * if x < 0 then -x else x)).toNat
  (if x < 0 then ['-'] else []) ++ Nat.toDigits 10 (tenths / 10) ++ '.' ::
    Nat.toDigits 10 (tenths % 10)

namespace WorkloadResult

/-- `execution_status.upper()`. -/
def statusText (result : WorkloadResult) : PyStr :=
  if result.returncode = 0 then "SUCCEEDED".toList else "FAILED".toList

/-- The line of a result up to its elapsed time. -/
def headText (result : WorkloadResult) : PyStr :=
  '[' :: (result.statusText ++ ("] ".toList ++ (result.name ++ (": rc=".toList ++
    (intText result.returncode ++ (" elapsed=".toList ++ (tenthsText result.elapsed ++ ['s'])))))))

/-- `detail`. -/
def detailText (result : WorkloadResult) : PyStr :=
  if result.error = [] then [] else " - ".toList ++ result.error

/-- The line that `do_all` prints for a result. -/
def summaryLine (result : WorkloadResult) : PyStr :=
  result.headText ++ (" detection=".toList ++ (result.detectionStatus ++ result.detailText))

/-- `execution_status`. -/
def executionStatus (result : WorkloadResult) : PyStr :=
  if result.returncode = 0 then "succeeded".toList else "failed".toList

end WorkloadResult

/-- What `do_all` prints behind the output of the workloads. -/
def summaryText (results : List WorkloadResult) : PyStr :=
  hdr "WORKLOAD SUMMARY".toList ++
    (sortBy WorkloadResult.name results).flatMap fun result => printed result.summaryLine

/-- The title that `main` prints behind the output of a command. -/
def doneTitle (result : WorkloadResult) : PyStr :=
  "DONE in ".toList ++ (tenthsText result.elapsed ++ ("s; execution=".toList ++
    (result.executionStatus ++ "; detection=not_evaluated".toList)))

/-- What `main` prints behind the output of a command. -/
def doneText (result : WorkloadResult) : PyStr :=
  hdr (doneTitle result) ++
    if result.error = [] then [] else printed ("[ERR] ".toList ++ result.error)

/-- The result of `do_all` itself, as `main` gets it. -/
def allResult (results : List WorkloadResult) (elapsed : Time) : WorkloadResult :=
  runWorkload "all".toList (.returned (.value (.int (suiteStatus results)))) elapsed

/-- The suite has failed as one, or not at all. -/
theorem error_allResult (results : List WorkloadResult) (elapsed : Time) :
    (allResult results elapsed).error = [] ∨
      (allResult results elapsed).error = "process exited with status 1".toList := by
  have hstatus : suiteStatus results = 0 ∨ suiteStatus results = 1 := by
    unfold suiteStatus
    simp only
    split
    · exact .inl rfl
    · exact .inr rfl
  rcases hstatus with hzero | hone
  · left
    rw [allResult, hzero]
    rfl
  · right
    rw [allResult, hone]
    rfl

theorem elapsed_allResult (results : List WorkloadResult) (elapsed : Time) :
    (allResult results elapsed).elapsed = elapsed := rfl

/-! ## The suite -/

/-- The name of a subcommand. -/
def Command.name (command : Command) : PyStr :=
  ((Command.names.find? fun entry => entry.2 = command).map Prod.fst).getD []

/-- The workload as `run_concurrently` sees it, with the `__name__` of its sender. -/
def Workload.task (workload : Workload) : Task :=
  ⟨workload.name, "do_".toList ++ workload.func.name, workload.args⟩

/-- The results that `do_all` can get for its arguments. -/
def SuiteResults (a : Namespace) (results : List WorkloadResult) : Prop :=
  ∃ workloads s, buildAllWorkloads a = .ok workloads ∧
    (execution (workloads.map Workload.task) a.limitsOf).Reachable s ∧
    s.stage = .returned results

theorem detectionStatus_runWorkload (name : PyStr) (outcome : Outcome) (elapsed : Time) :
    (runWorkload name outcome elapsed).detectionStatus = "not_evaluated".toList := by
  unfold runWorkload
  split
  · rfl
  · split <;> rfl

theorem elapsed_runWorkload (name : PyStr) (outcome : Outcome) (elapsed : Time) :
    (runWorkload name outcome elapsed).elapsed = elapsed := by
  unfold runWorkload
  split
  · rfl
  · split <;> rfl

theorem validateTask_task (workload : Workload) :
    validateTask workload.task = validateArgs workload.args workload.func := by
  have hname : ∀ command : Command, Command.ofName? command.name = some command ∧
      command.name ≠ [] := by
    intro command
    cases command <;> exact ⟨rfl, List.cons_ne_nil _ _⟩
  obtain ⟨hcommand, hne⟩ := hname workload.func
  have hbegins : "do_".toList.isPrefixOf workload.task.func = true :=
    List.isPrefixOf_iff_prefix.mpr ⟨_, rfl⟩
  show (if _ then validateNamed workload.args (workload.func.name) else _) = _
  rw [if_pos hbegins, validateNamed, if_neg hne, hcommand, Option.getD_some]

theorem buildAllWorkloads_eq {a : Namespace} {workloads : List Workload}
    (h : buildAllWorkloads a = .ok workloads) :
    (∃ duration, a.attr "duration" = .ok duration ∧ workloads = suite a duration) ∧
      workloads.length ≤ a.limitsOf.maxWorkloads ∧
      ∀ workload ∈ workloads, validateArgs workload.args workload.func = .ok () := by
  obtain ⟨duration, hduration, h⟩ := bind_ok_iff.mp h
  obtain ⟨n, hn, h⟩ := bind_ok_iff.mp h
  obtain ⟨_, hchecks, h⟩ := bind_ok_iff.mp h
  cases h
  exact ⟨⟨duration, hduration, rfl⟩, (boundedInt_ok_iff.mp ⟨n, hn⟩).2, forM_ok_iff.mp hchecks⟩

/-- A suite that was built is executed. -/
theorem checked_suite {a : Namespace} {workloads : List Workload}
    (h : buildAllWorkloads a = .ok workloads) :
    checked (workloads.map Workload.task) a.limitsOf = .executing := by
  obtain ⟨⟨duration, -, hsuite⟩, hlen, hvalid⟩ := buildAllWorkloads_eq h
  have haccepted : ¬ Rejected (workloads.map Workload.task) a.limitsOf := by
    rintro (hlong | ⟨task, htask, err, herr⟩)
    · rw [List.length_map] at hlong
      omega
    · obtain ⟨workload, hworkload, rfl⟩ := List.mem_map.mp htask
      rw [validateTask_task, hvalid workload hworkload] at herr
      cases herr
  rcases checked_of_not_rejected haccepted with ⟨hnil, -⟩ | hexecuting
  · rw [hsuite] at hnil
    cases hnil
  · exact hexecuting

/-! ## What the results have in common -/

/-- The names of the suite. -/
def suiteNames : List PyStr :=
  ["http", "dns", "handshake-ftp", "eicar", "gtube", "scan-syn", "scan-xmas", "scan-fin",
    "flood-syn", "flood-icmp", "flood-udp", "malformed", "bad-checksum", "tiny-ttl", "fragments",
    "denied-port", "wrk", "iperf3"].map String.toList

theorem suite_names (a : Namespace) (duration : PyValue) :
    (suite a duration).map Workload.name = suiteNames := rfl

/-- A name without a colon and without white space. -/
structure PlainName (name : PyStr) : Prop where
  ne_nil : name ≠ []
  plain : ∀ c ∈ name, c ≠ ':' ∧ isSpace c = false

theorem suiteNames_nodup : suiteNames.Nodup := by decide

theorem suiteNames_plain : ∀ name ∈ suiteNames, PlainName name := by
  have hall : (suiteNames.all fun name =>
      !name.isEmpty && name.all fun c => c != ':' && !isSpace c) = true := rfl
  intro name hname
  have h := List.all_eq_true.mp hall name hname
  simp only [Bool.and_eq_true, Bool.not_eq_true', List.isEmpty_eq_false_iff, List.all_eq_true,
    bne_iff_ne] at h
  exact ⟨h.1, h.2⟩

namespace SuiteResults

variable {a : Namespace} {results : List WorkloadResult}

theorem names (h : SuiteResults a results) :
    (results.map WorkloadResult.name).Perm suiteNames := by
  obtain ⟨workloads, s, hbuild, hs, hreturned⟩ := h
  obtain ⟨⟨duration, -, rfl⟩, -⟩ := buildAllWorkloads_eq hbuild
  have hperm := ((Sound.reachable hs).lossless hreturned).names
  rw [List.map_map] at hperm
  exact hperm

theorem nodup (h : SuiteResults a results) : (results.map WorkloadResult.name).Nodup :=
  h.names.nodup_iff.mpr suiteNames_nodup

theorem plain (h : SuiteResults a results) : ∀ result ∈ results, PlainName result.name := by
  intro result hresult
  exact suiteNames_plain _ (h.names.mem_iff.mp (List.mem_map_of_mem hresult))

/-- No result has been evaluated. -/
theorem detectionStatus (h : SuiteResults a results) :
    ∀ result ∈ results, result.detectionStatus = "not_evaluated".toList := by
  intro result hresult
  obtain ⟨workloads, s, -, hs, hreturned⟩ := h
  have hsound := Sound.reachable hs
  obtain ⟨-, -, rfl⟩ := hsound.returned results hreturned
  obtain ⟨entry, hentry, rfl⟩ := List.mem_map.mp hresult
  obtain ⟨task, outcome, elapsed, -, -, hresult⟩ := hsound.threads.collected entry hentry
  rw [hresult]
  exact detectionStatus_runWorkload task.name outcome elapsed

end SuiteResults

/-! ## Every outcome is possible -/

section outcomes

variable (tasks : List Task) (limits : WorkloadLimits) (outcome : Nat → Outcome)
  (elapsed : Nat → Time)

/-- The result of a workload whose function ends with its outcome. -/
def resultAt (i : Nat) : WorkloadResult :=
  runWorkload ((tasks[i]?.map Task.name).getD []) (outcome i) (elapsed i)

/-- The call after the first `n` workloads, one after the other. -/
def afterWorkloads (n : Nat) : Exec where
  stage := .executing
  calls := List.range n
  phase i := if i < n then .finished (outcome i) (elapsed i) else .queued
  collected := (List.range n).map fun i => (i, resultAt tasks outcome elapsed i)

theorem reachable_afterWorkloads (h : checked tasks limits = .executing) {n : Nat}
    (hn : n ≤ tasks.length) :
    (execution tasks limits).Reachable (afterWorkloads tasks outcome elapsed n) := by
  induction n with
  | zero =>
      have hcheck : (execution tasks limits).step Exec.start .check
          { Exec.start with stage := checked tasks limits } := rfl
      rw [h] at hcheck
      exact (TSys.Reachable.init rfl).step hcheck
  | succ n ih =>
      have hlt : n < tasks.length := hn
      let s := afterWorkloads tasks outcome elapsed n
      have hqueued : s.phase n = .queued := if_neg (Nat.lt_irrefl n)
      -- the function is called, ends with its outcome, and its future is collected
      let s₁ : Exec := { s with calls := s.calls ++ [n], phase := update s.phase n .running }
      let s₂ : Exec :=
        { s₁ with phase := update s₁.phase n (.finished (outcome n) (elapsed n)) }
      have hcall : (execution tasks limits).step s (.call n) s₁ :=
        if_pos ⟨rfl, hlt, by rw [hqueued]; rfl⟩
      have hfinish : (execution tasks limits).step s₁ (.finish n (outcome n) (elapsed n)) s₂ :=
        if_pos ⟨rfl, by rw [show s₁.phase n = .running from update_self _ _ _]; rfl⟩
      have hnew : n ∉ s₂.collected.map Prod.fst := by
        show n ∉ ((List.range n).map fun i => (i, resultAt tasks outcome elapsed i)).map Prod.fst
        simp
      have hcollect : (execution tasks limits).step s₂ (.collect n) { s₂ with
          collected := s₂.collected ++ [(n, resultAt tasks outcome elapsed n)] } := by
        show s₂.step tasks limits (.collect n) = _
        simp only [Exec.step]
        rw [List.getElem?_eq_getElem hlt,
          show s₂.phase n = .finished (outcome n) (elapsed n) from update_self _ _ _]
        simp only
        rw [if_pos ⟨rfl, hnew⟩, resultAt, List.getElem?_eq_getElem hlt]
        rfl
      have hlast : { s₂ with collected := s₂.collected ++
          [(n, resultAt tasks outcome elapsed n)] } =
          afterWorkloads tasks outcome elapsed (n + 1) := by
        have hphase : s₂.phase = (afterWorkloads tasks outcome elapsed (n + 1)).phase := by
          funext i
          show update (update s.phase n .running) n _ i = if i < n + 1 then _ else _
          by_cases hi : i = n
          · rw [hi, update_self, if_pos (Nat.lt_succ_self n)]
          · rw [update_of_ne _ _ hi, update_of_ne _ _ hi]
            show (if i < n then _ else _) = if i < n + 1 then _ else _
            by_cases hlt' : i < n
            · rw [if_pos hlt', if_pos (Nat.lt_succ_of_lt hlt')]
            · rw [if_neg hlt', if_neg (by omega)]
        show Exec.mk _ _ _ _ = Exec.mk _ _ _ _
        rw [hphase]
        simp [s₂, s₁, s, afterWorkloads, List.range_succ]
      rw [← hlast]
      exact (((ih (Nat.le_of_lt hlt)).step hcall).step hfinish).step hcollect

/-- An accepted list can return any outcomes. -/
theorem exists_returned (h : checked tasks limits = .executing) :
    ∃ s, (execution tasks limits).Reachable s ∧
      s.stage = .returned ((List.range tasks.length).map (resultAt tasks outcome elapsed)) := by
  have hs := reachable_afterWorkloads tasks limits outcome elapsed h (Nat.le_refl tasks.length)
  have hleave : (execution tasks limits).step
      (afterWorkloads tasks outcome elapsed tasks.length) .leave _ :=
    if_pos ⟨rfl, by simp [afterWorkloads]⟩
  refine ⟨_, hs.step hleave, ?_⟩
  simp [afterWorkloads]

end outcomes

end SrxProbe.Deploy
