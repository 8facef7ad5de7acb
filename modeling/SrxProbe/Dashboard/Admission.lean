import SrxProbe.Dashboard.RunSafety
import SrxProbe.Lib.Dict

/-!
# Admission

`spawn_run` and the registry `RUNS`. A call holds `RUNS_LOCK` while it scans the
registry and inserts its run, but takes each run's own lock only for one
snapshot, so runs may finish between any two of its looks at the registry.
-/

namespace SrxProbe.Dashboard

open SrxProbe.Lib

/-- A `Run` object, by the order of creation. -/
abbrev Addr := Nat

/-- The arguments of a `spawn_run` call. A request id is not empty: the one
caller takes it from `validate_request`, which asks for 8 characters or more. -/
structure Call where
  request : Request
  requestId : Option PyStr
  nonempty : requestId ≠ some []
  deriving DecidableEq

/-- What a call comes to in the locked block. -/
inductive Outcome
  /-- the run admitted for an earlier call with the same request id -/
  | existing (a : Addr)
  | admitted (a : Addr)
  | raised (err : PyErr)
  deriving DecidableEq, Repr

def usedError : PyErr :=
  .admissionError "request_id already used with different arguments".toList

def activeError : PyErr :=
  .admissionError "a run is already active; stop or wait for it".toList

/-- Where the holder of `RUNS_LOCK` is. -/
inductive Holder
  | free
  /-- in the loop over `RUNS.values()` that compares request ids -/
  | scanning (call : Call) (rest : List Addr)
  /-- in the `any` over the snapshots -/
  | polling (call : Call) (rest : List Addr)

/-- The registry and the objects it refers to. `starting` are the runs whose call
has left the block and not yet started the worker. `lastInserted` and `answered`
are history variables. -/
structure Registry where
  heap : Addr → Run
  nextAddr : Addr
  runs : Dict PyStr Addr
  holder : Holder
  starting : List Addr
  workers : List Addr
  lastInserted : Option Addr
  answered : List (Call × Outcome)

inductive AdmitAct
  /-- a call takes `RUNS_LOCK` -/
  | enter (call : Call)
  /-- the holder looks at one more run -/
  | look
  /-- the holder inserts its run, with what `uuid4`, `make_cmd` and the clock gave -/
  | insert (id cmdline : PyStr) (now : Time)
  /-- a call past the block starts its worker thread -/
  | start (a : Addr)
  /-- anyone who has the run executes an operation on it -/
  | op (a : Addr) (op : Op)

namespace Registry

/-- The holder releases the lock with an outcome. -/
def answer (s : Registry) (call : Call) (outcome : Outcome) : Registry :=
  { s with holder := .free, answered := s.answered ++ [(call, outcome)] }

/-- One look: `existing.request_id == request_id`, then the snapshots. -/
def look (s : Registry) : Option Registry :=
  match s.holder with
  | .scanning call [] => some { s with holder := .polling call s.runs.values }
  | .scanning call (a :: rest) =>
      let existing := s.heap a
      if call.requestId.isSome ∧ existing.requestId = call.requestId then
        if existing.request ≠ some call.request then
          some (s.answer call (.raised usedError))
        else some (s.answer call (.existing a))
      else some { s with holder := .scanning call rest }
  | .polling call (a :: rest) =>
      if (s.heap a).ended.isNone then some (s.answer call (.raised activeError))
      else some { s with holder := .polling call rest }
  | _ => none

/-- The rest of the block: `RUNS[run_id] = run` and the eviction. -/
def insert (s : Registry) (id cmdline : PyStr) (now : Time) : Option Registry :=
  match s.holder with
  | .polling call [] =>
      let a := s.nextAddr
      let run := { Run.new id cmdline call.request.workload now with
        requestId := call.requestId
        request := some call.request }
      some ({ s with
        heap := update s.heap a run
        nextAddr := a + 1
        runs := (s.runs.set id a).trim maxRuns
        starting := s.starting ++ [a]
        lastInserted := some a }.answer call (.admitted a))
  | _ => none

def step (s : Registry) : AdmitAct → Option Registry
  | .enter call =>
      match s.holder with
      | .free => some { s with holder := .scanning call s.runs.values }
      | _ => none
  | .look => s.look
  | .insert id cmdline now => s.insert id cmdline now
  | .start a =>
      if a ∈ s.starting then
        some { s with starting := s.starting.erase a, workers := s.workers ++ [a] }
      else none
  | .op a op =>
      if a < s.nextAddr then
        match (s.heap a).exec op with
        | .ok run => some { s with heap := update s.heap a run }
        | .error _ => none
      else none

def Initial (s : Registry) : Prop :=
  s.nextAddr = 0 ∧ s.runs = .empty ∧ s.holder = .free ∧ s.starting = [] ∧ s.workers = [] ∧
    s.lastInserted = none ∧ s.answered = []

def system : TSys Registry AdmitAct := TSys.ofFn Initial step

end Registry

end SrxProbe.Dashboard
