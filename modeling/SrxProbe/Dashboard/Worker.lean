import SrxProbe.Dashboard.RunSafety

/-!
# The worker and the stop button

The worker thread of one run and any number of `kill_run` calls on it, step by
step. A block under the run's lock is one step; `Popen`, reads, polls, signals
and closing the pipe are steps whose outcome the label carries, raising included.
-/

namespace SrxProbe.Dashboard

open SrxProbe.Lib

/-- `signal.SIGTERM`. -/
def sigterm : Int := 15

/-- Where a `kill_run` call is. -/
inductive KillPc
  | entry
  /-- `run.proc.poll()` after the locked block -/
  | polling
  /-- `os.killpg(pid, SIGTERM)` -/
  | terminating
  /-- `run.proc.poll()` after the sleep -/
  | checking
  /-- `os.killpg(pid, SIGKILL)` -/
  | killing
  /-- in the `except` block -/
  | failing (e : Raised)
  | returned (value : Bool)
  /-- the first poll raised -/
  | raised
  deriving DecidableEq, Repr

/-- Where the worker thread is. -/
inductive WorkerPc
  /-- before the locked stop check -/
  | entering
  /-- about to emit the command line -/
  | greeting
  | reading
  | relaying (line : PyStr)
  | waiting
  /-- in the `except` block; `proc` tells whether there is a process -/
  | handling (proc : Bool) (e : Raised)
  | polling (rc : Int)
  /-- in its own call of `kill_run` -/
  | killing (call : KillPc) (rc : Int)
  /-- in the `finally` block, with a process -/
  | closing (rc : Int)
  | finishing (rc : Int)
  | done
  /-- the thread could not be started: `spawn_run` ends the run itself -/
  | unstarted (e : Raised)
  deriving DecidableEq, Repr

abbrev KillerId := Nat

/-- A run with its worker and the `kill_run` calls on it. The other fields are
history variables: the `Popen` calls, the `finish` calls, who has sent a signal
(`none` is the worker), the calls that came after the end, and whether a call
came before the worker's locked block. -/
structure WorkerState where
  run : Run
  worker : WorkerPc
  killers : KillerId → KillPc
  popenCalls : Nat
  finishCalls : Nat
  signals : List (Option KillerId)
  lateKills : List KillerId
  killedFirst : Bool

inductive WorkerAct
  /-- the locked block, with what `Popen` would do -/
  | enter (popen : Except Raised Nat)
  /-- an `emit`, which nothing outside decides -/
  | emit
  | read (line : Except Raised PyStr)
  | wait (rc : Except Raised Int)
  | poll (alive : Except Raised Bool)
  | kill (reply : Except Raised Bool)
  | close (result : Except Raised Unit)
  | finish (now : Time) (recorded : Except PyErr BatchRef)
  /-- a step of a `kill_run` call -/
  | killer (k : KillerId) (reply : Except Raised Bool)
  /-- an operation of a subscriber -/
  | client (op : Op)

namespace Op

/-- The operations of subscribers. -/
def isClient : Op → Bool
  | .emit _ => false
  | .finish .. => false
  | _ => true

end Op

/-- One step of `kill_run`: the run, where the call is next, and whether it has
called `os.killpg`. -/
def killStep (r : Run) (pc : KillPc) (reply : Except Raised Bool) :
    Option (Run × KillPc × Bool) :=
  match pc with
  | .entry =>
      if r.terminal.isSome then some (r, .returned false, false)
      else
        let r := { r with stopRequested := true }
        if r.proc.isNone then some (r, .returned true, false)
        else some (r, .polling, false)
  | .polling =>
      match reply with
      | .ok true => some (r, .terminating, false)
      | .ok false => some (r, .returned false, false)
      | .error _ => some (r, .raised, false)
  | .terminating =>
      match reply with
      | .ok _ => some (r, .checking, true)
      | .error e => some (r, .failing e, true)
  | .checking =>
      match reply with
      | .ok true => some (r, .killing, false)
      | .ok false => some (r, .returned true, false)
      | .error e => some (r, .failing e, false)
  | .killing =>
      match reply with
      | .ok _ => some (r, .returned true, true)
      | .error e => some (r, .failing e, true)
  | .failing e =>
      match r.emit ("ERROR killing: ".toList ++ e.message) with
      | .ok r => some (r, .returned false, false)
      | .error _ => none
  | .returned _ => none
  | .raised => none

namespace WorkerState

/-- `rc` in the `except` block. -/
def errorRc (e : Raised) : Int := if e.err = .fileNotFoundError then 127 else 1

/-- An `emit` and what comes next. -/
def emitting (s : WorkerState) (line : PyStr) (next : WorkerPc) : Option WorkerState :=
  match s.run.emit line with
  | .ok run => some { s with run, worker := next }
  | .error _ => none

/-- One step of `target_thread`. -/
def workerStep (s : WorkerState) : WorkerAct → Option WorkerState
  | .enter popen =>
      match s.worker with
      | .entering =>
          if s.run.stopRequested then some { s with worker := .finishing (-sigterm) }
          else
            let s := { s with popenCalls := s.popenCalls + 1 }
            match popen with
            | .ok pid => some { s with
                run := { s.run with proc := some pid }
                worker := .greeting }
            | .error e => some { s with worker := .handling false e }
      | _ => none
  | .emit =>
      match s.worker with
      | .greeting => s.emitting ("$ ".toList ++ s.run.cmdline) .reading
      | .relaying line => s.emitting (rstripChar '\n' line) .reading
      | .handling proc e =>
          s.emitting ("ERROR: ".toList ++ e.message)
            (if proc then .polling (errorRc e) else .finishing (errorRc e))
      | .unstarted e => s.emitting ("ERROR starting worker: ".toList ++ e.message) (.finishing 1)
      | _ => none
  | .read line =>
      match s.worker, line with
      | .reading, .ok [] => some { s with worker := .waiting }
      | .reading, .ok line => some { s with worker := .relaying line }
      | .reading, .error e => some { s with worker := .handling true e }
      | _, _ => none
  | .wait rc =>
      match s.worker, rc with
      | .waiting, .ok rc => some { s with worker := .closing rc }
      | .waiting, .error e => some { s with worker := .handling true e }
      | _, _ => none
  | .poll alive =>
      match s.worker, alive with
      | .polling rc, .ok true => some { s with worker := .killing .entry rc }
      | .polling rc, _ => some { s with worker := .closing rc }
      | _, _ => none
  | .kill reply =>
      match s.worker with
      | .killing (.returned _) rc => some { s with worker := .closing rc }
      | .killing .raised rc => some { s with worker := .closing rc }
      | .killing pc rc =>
          match killStep s.run pc reply with
          | some (run, pc, signalled) => some { s with
              run
              worker := .killing pc rc
              signals := if signalled then s.signals ++ [none] else s.signals }
          | none => none
      | _ => none
  | .close _ =>
      -- a failing `close` does not get past the inner `finally`
      match s.worker with
      | .closing rc => some { s with worker := .finishing rc }
      | _ => none
  | .finish now recorded =>
      match s.worker with
      | .finishing rc =>
          match s.run.finish rc now recorded with
          | .ok run => some { s with run, worker := .done, finishCalls := s.finishCalls + 1 }
          | .error _ => none
      | _ => none
  | _ => none

/-- One step of the `kill_run` call `k`. -/
def killerStep (s : WorkerState) (k : KillerId) (reply : Except Raised Bool) :
    Option WorkerState :=
  match killStep s.run (s.killers k) reply with
  | some (run, pc, signalled) => some { s with
      run
      killers := update s.killers k pc
      signals := if signalled then s.signals ++ [some k] else s.signals
      lateKills := if s.killers k = .entry ∧ s.run.terminal.isSome then s.lateKills ++ [k]
        else s.lateKills
      killedFirst := s.killedFirst || (s.killers k = .entry && s.worker = .entering) }
  | none => none

def step (s : WorkerState) : WorkerAct → Option WorkerState
  | .killer k reply => s.killerStep k reply
  | .client op =>
      if op.isClient then
        match s.run.exec op with
        | .ok run => some { s with run }
        | .error _ => none
      else none
  | act => s.workerStep act

/-- A new run whose worker thread has been started, or could not be. -/
def Initial (s : WorkerState) : Prop :=
  (∃ id cmdline workload now, s.run = Run.new id cmdline workload now) ∧
    (s.worker = .entering ∨ ∃ e, s.worker = .unstarted e) ∧ (∀ k, s.killers k = .entry) ∧
    s.popenCalls = 0 ∧ s.finishCalls = 0 ∧ s.signals = [] ∧ s.lateKills = [] ∧
    s.killedFirst = false

def system : TSys WorkerState WorkerAct := TSys.ofFn Initial step

end WorkerState

end SrxProbe.Dashboard
