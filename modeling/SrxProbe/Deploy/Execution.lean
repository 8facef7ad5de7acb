import SrxProbe.Deploy.Cli
import SrxProbe.Lib.TSys

/-!
# The execution of a suite

`run_concurrently` checks the whole list before it starts anything. Then the function
of each workload is called on a thread of its own, and the results are collected as the
functions complete, in whatever order they do. Every outcome of a function, a returned
value or an exception, becomes an entry with an exit code and the text of an error.
-/

namespace SrxProbe.Deploy

open SrxProbe.Lib SrxProbe.Generators

/-! ## Outcomes -/

/-- A `CommandResult`: an exit code with captured diagnostics. -/
structure CommandResult where
  returncode : Int
  error : PyStr
  metadata : List (PyStr × PyValue)

/-- What a workload function returns. -/
inductive Returned
  | value (value : PyValue)
  | command (result : CommandResult)

/-- The exceptions that `_run_workload` tells apart, with the `repr` of the streams it
reports. `check_returncode` raises for a status that is not zero. -/
inductive Failure
  | calledProcessError (returncode : { n : Int // n ≠ 0 }) (stdout stderr : PyStr)
  | timeoutExpired (stdout stderr : PyStr)
  | fileNotFoundError
  | other

/-- An exception: the name of its type, and its text. -/
structure Thrown where
  type : PyStr
  text : PyStr
  failure : Failure

/-- How a call of a workload function ends. -/
inductive Outcome
  | returned (value : Returned)
  | raised (exc : Thrown)

namespace Returned

/-- The exit code, if it is an `int` and not a `bool`. -/
def status : Returned → Option Int
  | value (.int n) => some n
  | value _ => none
  | command result => some result.returncode

/-- `getattr(returncode, "error", "")`. -/
def error : Returned → PyStr
  | value _ => []
  | command result => result.error

/-- `getattr(returncode, "metadata", {})`. -/
def metadata : Returned → List (PyStr × PyValue)
  | value _ => []
  | command result => result.metadata

end Returned

namespace Thrown

/-- The exit code that stands for an exception. -/
def status (exc : Thrown) : Int :=
  match exc.failure with
  | .calledProcessError returncode _ _ => returncode
  | .timeoutExpired _ _ => 124
  | .fileNotFoundError => 127
  | .other => 1

/-- The streams of a process that failed. -/
def streams (exc : Thrown) : PyStr :=
  match exc.failure with
  | .calledProcessError _ stdout stderr | .timeoutExpired stdout stderr =>
      "; stdout=".toList ++ stdout ++ "; stderr=".toList ++ stderr
  | .fileNotFoundError | .other => []

def describe (exc : Thrown) : PyStr := exc.type ++ ": ".toList ++ exc.text ++ exc.streams

end Thrown

/-- What `_run_workload` raises at a value that is no exit code. -/
def notAnExitCode : Thrown :=
  ⟨"TypeError".toList, "workload must return an integer exit code".toList, .other⟩

/-- `WorkloadResult`. -/
structure WorkloadResult where
  name : PyStr
  returncode : Int
  elapsed : Time
  error : PyStr
  detectionStatus : PyStr
  metadata : List (PyStr × PyValue)

/-- The entry of a workload that raised. -/
def failedResult (name : PyStr) (exc : Thrown) (elapsed : Time) : WorkloadResult :=
  ⟨name, exc.status, elapsed, exc.describe, "not_evaluated".toList, []⟩

/-- The entry of a workload that returned the exit code `n`. -/
def returnedResult (name : PyStr) (value : Returned) (n : Int) (elapsed : Time) : WorkloadResult :=
  let error :=
    if n ≠ 0 ∧ value.error = [] then "process exited with status ".toList ++ intText n
    else value.error
  ⟨name, n, elapsed, error, "not_evaluated".toList, value.metadata⟩

/-- `_run_workload`, for what its function did and how long it took. -/
def runWorkload (name : PyStr) (outcome : Outcome) (elapsed : Time) : WorkloadResult :=
  match outcome with
  | .raised exc => failedResult name exc elapsed
  | .returned value =>
      match value.status with
      | none => failedResult name notAnExitCode elapsed
      | some n => returnedResult name value n elapsed

/-- The function returned the integer 0. -/
def Outcome.isZero : Outcome → Prop
  | .returned value => value.status = some 0
  | .raised _ => False

theorem Thrown.status_ne_zero (exc : Thrown) : exc.status ≠ 0 := by
  unfold Thrown.status
  split
  · rename_i returncode _ _ _
    exact returncode.2
  · decide
  · decide
  · decide

theorem Thrown.describe_ne_nil (exc : Thrown) : exc.describe ≠ [] := by
  simp [Thrown.describe]

theorem returnedResult_error {name : PyStr} {value : Returned} {n : Int} {elapsed : Time}
    (h : n ≠ 0) : (returnedResult name value n elapsed).error ≠ [] := by
  unfold returnedResult
  simp only
  split
  · simp
  · rename_i hnot
    exact fun hnil => hnot ⟨h, hnil⟩

/-- An entry has the name of its workload, the exit code 0 for the integer 0 alone, and
an error with every other one. -/
structure EntryOf (name : PyStr) (outcome : Outcome) (result : WorkloadResult) : Prop where
  name : result.name = name
  zero : result.returncode = 0 ↔ outcome.isZero
  error : result.returncode ≠ 0 → result.error ≠ []

theorem entryOf_runWorkload (name : PyStr) (outcome : Outcome) (elapsed : Time) :
    EntryOf name outcome (runWorkload name outcome elapsed) := by
  cases outcome with
  | raised exc => exact ⟨rfl, iff_of_false exc.status_ne_zero id, fun _ => exc.describe_ne_nil⟩
  | returned value =>
      unfold runWorkload
      simp only
      cases hstatus : value.status with
      | none =>
          have hzero : ¬ (Outcome.returned value).isZero := by
            intro hzero
            cases hstatus.symm.trans hzero
          exact ⟨rfl, iff_of_false notAnExitCode.status_ne_zero hzero,
            fun _ => notAnExitCode.describe_ne_nil⟩
      | some n =>
          refine ⟨rfl, ?_, returnedResult_error⟩
          show n = 0 ↔ value.status = some 0
          rw [hstatus, Option.some.injEq]

/-! ## Preflight -/

/-- A `Workload`. Its function is known by its `__name__`. -/
structure Task where
  name : PyStr
  func : PyStr
  args : Namespace

/-- `validate_args(a, name)`. A name that is no command is checked for its port alone, as
`http` is. -/
def validateNamed (a : Namespace) (name : PyStr) : Except PyErr Unit :=
  if name = [] then validateArgs a a.cmd
  else validateArgs a ((Command.ofName? name).getD .http)

/-- The check of one workload before the suite is started. -/
def validateTask (task : Task) : Except PyErr Unit :=
  if "do_".toList.isPrefixOf task.func then validateNamed task.args (task.func.drop 3)
  else .ok ()

/-- The checks of `run_concurrently` on a list that is not empty. -/
def checkSuite (tasks : List Task) (limits : WorkloadLimits) : Except PyErr Unit := do
  let _ ← boundedInt "concurrent workloads".toList (.int tasks.length) limits.maxWorkloads 1
  tasks.forM validateTask

/-! ## Execution -/

/-- How far the thread of a workload is. -/
inductive Phase
  | queued
  | running
  | finished (outcome : Outcome) (elapsed : Time)

namespace Phase

def isQueued : Phase → Bool
  | queued => true
  | _ => false

def isRunning : Phase → Bool
  | running => true
  | _ => false

end Phase

/-- Where `run_concurrently` is, or how it has ended. -/
inductive Stage
  | checking
  | executing
  | raised (err : PyErr)
  | returned (results : List WorkloadResult)

namespace Stage

def isChecking : Stage → Bool
  | checking => true
  | _ => false

def isExecuting : Stage → Bool
  | executing => true
  | _ => false

end Stage

/-- A call of `run_concurrently`. Workloads are known by their position in the list, and
`calls` are the calls of their functions so far. -/
structure Exec where
  stage : Stage
  calls : List Nat
  phase : Nat → Phase
  collected : List (Nat × WorkloadResult)

/-- The steps of a call: its own, and those of the threads. -/
inductive Event
  | check
  | call (i : Nat)
  | finish (i : Nat) (outcome : Outcome) (elapsed : Time)
  | collect (i : Nat)
  | leave

/-- The stage after the checks. -/
def checked (tasks : List Task) (limits : WorkloadLimits) : Stage :=
  if tasks.isEmpty then .returned []
  else
    match checkSuite tasks limits with
    | .ok _ => .executing
    | .error err => .raised err

section step

variable (tasks : List Task) (limits : WorkloadLimits)

/-- One step of a call. The threads have started when the functions are called, each is
called by its own thread, and `as_completed` yields each future once, after it is done. -/
def Exec.step (s : Exec) : Event → Option Exec
  | .check => if s.stage.isChecking then some { s with stage := checked tasks limits } else none
  | .call i =>
      if s.stage.isExecuting ∧ i < tasks.length ∧ (s.phase i).isQueued then
        some { s with calls := s.calls ++ [i], phase := update s.phase i .running }
      else none
  | .finish i outcome elapsed =>
      if s.stage.isExecuting ∧ (s.phase i).isRunning then
        some { s with phase := update s.phase i (.finished outcome elapsed) }
      else none
  | .collect i =>
      match tasks[i]?, s.phase i with
      | some task, .finished outcome elapsed =>
          if s.stage.isExecuting ∧ i ∉ s.collected.map Prod.fst then
            some { s with
              collected := s.collected ++ [(i, runWorkload task.name outcome elapsed)] }
          else none
      | _, _ => none
  | .leave =>
      if s.stage.isExecuting ∧ s.collected.length = tasks.length then
        some { s with stage := .returned (s.collected.map Prod.snd) }
      else none

/-- The state before the checks. -/
def Exec.start : Exec := ⟨.checking, [], fun _ => .queued, []⟩

/-- The calls of `run_concurrently` on a list of workloads. -/
def execution : TSys Exec Event := TSys.ofFn (· = Exec.start) (Exec.step tasks limits)

end step

/-- `do_all`'s exit code. -/
def suiteStatus (results : List WorkloadResult) : Int :=
  let failures := results.filter fun result => result.returncode ≠ 0
  if failures.isEmpty then 0 else 1

end SrxProbe.Deploy
