import SrxProbe.Lib.Fifo
import SrxProbe.Lib.Py
import SrxProbe.Lib.Ring

/-!
# One dashboard run

The `Run` object of the dashboard: the retained output and events, the
subscribers' queues and the terminal latch, with the four operations that touch
them under the run's lock. An operation holds the lock for its whole body, so
each is one function here.
-/

namespace SrxProbe.Dashboard

open SrxProbe.Lib

/-- `MAX_LINES`: output chunks and events retained by a run. -/
def maxLines : Nat := 2000

/-- `MAX_LINE_CHARS`: characters kept of one output chunk. -/
def maxLineChars : Nat := 4096

/-- `QUEUE_SIZE`: events waiting for one subscriber. -/
def queueSize : Nat := 256

/-- `MAX_SUBSCRIBERS` of one run. -/
def maxSubscribers : Nat := 16

/-- `MAX_RUNS`: runs kept in memory. -/
def maxRuns : Nat := 30

theorem maxLines_pos : 0 < maxLines := by decide

theorem queueSize_pos : 0 < queueSize := by decide

theorem maxRuns_pos : 0 < maxRuns := by decide

-- No proof computes with the limits; unfolding them only costs time.
attribute [irreducible] maxLines maxLineChars queueSize maxSubscribers maxRuns

/-- What `finish` copies of a history entry: `id`, `passed`, `failed`, `total`. -/
structure BatchRef where
  id : PyStr
  passed : Nat
  failed : Nat
  total : Nat
  deriving DecidableEq, Repr

/-- The payload of an `end` event. -/
structure EndPayload where
  rc : Int
  elapsed : Time
  batch : Option BatchRef
  historyError : Bool
  deriving DecidableEq, Repr

/-- Kind and data of an event: `log` with a line, `end` with its payload,
`reset` with the note shown to the client. -/
inductive EventData
  | log (line : PyStr)
  | «end» (payload : EndPayload)
  | reset (note : PyStr)
  deriving DecidableEq, Repr

/-- An event `(sequence, kind, data)`. -/
structure Event where
  id : Nat
  data : EventData
  deriving DecidableEq, Repr

namespace Event

def isEnd (e : Event) : Bool :=
  match e.data with
  | .end _ => true
  | _ => false

def isReset (e : Event) : Bool :=
  match e.data with
  | .reset _ => true
  | _ => false

/-- The line of a `log` event. -/
def line? (e : Event) : Option PyStr :=
  match e.data with
  | .log line => some line
  | _ => none

end Event

/-- The event `subscribe` puts in front of a replay whose start was evicted. -/
def resetEvent : Event :=
  ⟨0, .reset "Older output unavailable; showing retained tail.".toList⟩

/-- A request in the normal form `validate_request` returns it in. -/
inductive ParamValue
  | int (value : Int)
  | str (value : PyStr)
  deriving DecidableEq, Repr

/-- The tuple `(workload, target, src, params, root_ok)` a run was admitted for. -/
structure Request where
  workload : PyStr
  target : PyStr
  src : PyStr
  params : List (PyStr × ParamValue)
  rootOk : Bool
  deriving DecidableEq, Repr

/-- A subscriber's queue, by the order in which `subscribe` created it. -/
abbrev QueueId := Nat

/-- A queue of events; `none` tells the subscriber to reconnect. -/
abbrev EventQueue := Fifo (Option Event) queueSize

/-- A run. `queues` holds every queue `subscribe` has created, `nextQueue` of
them. `published` is a history variable: the events `_publish` has made. -/
structure Run where
  id : PyStr
  cmdline : PyStr
  workload : PyStr
  started : Time
  ended : Option Time
  returncode : Option Int
  lines : Ring PyStr maxLines
  events : Ring Event maxLines
  sequence : Nat
  terminal : Option Event
  subscribers : List QueueId
  queues : QueueId → EventQueue
  nextQueue : QueueId
  proc : Option Nat
  stopRequested : Bool
  requestId : Option PyStr
  request : Option Request
  published : List Event

namespace Run

/-- `Run(run_id, cmdline, use_sudo, workload)`. -/
def new (id cmdline workload : PyStr) (now : Time) : Run where
  id := id
  cmdline := cmdline
  workload := workload
  started := now
  ended := none
  returncode := none
  lines := .empty
  events := .empty
  sequence := 0
  terminal := none
  subscribers := []
  queues := fun _ => .empty
  nextQueue := 0
  proc := none
  stopRequested := false
  requestId := none
  request := none
  published := []

/-- The eviction of a full queue: `subscribers.remove(q)`, `get_nowait` until the
queue is empty, then `put_nowait(None)`. -/
def evict (r : Run) (q : QueueId) : Except PyErr Run := do
  let subscribers ← pyRemove r.subscribers q
  match (r.queues q).drain.putNowait none with
  | some queue => .ok { r with subscribers, queues := update r.queues q queue }
  | none => .error .queueFull

/-- One turn of the loop of `_publish` over the subscribers. -/
def offer (r : Run) (event : Event) (q : QueueId) : Except PyErr Run :=
  match (r.queues q).putNowait (some event) with
  | some queue => .ok { r with queues := update r.queues q queue }
  | none => r.evict q

/-- The first half of `_publish`: number the event and retain it. -/
def record (r : Run) (data : EventData) : Event × Run :=
  let event : Event := ⟨r.sequence + 1, data⟩
  (event, { r with
    sequence := r.sequence + 1
    events := r.events.push event
    published := r.published ++ [event] })

/-- `_publish`. The loop runs over a copy of the subscriber set. -/
def publish (r : Run) (data : EventData) : Except PyErr (Event × Run) := do
  let (event, r) := r.record data
  let r ← r.subscribers.foldlM (fun r q => r.offer event q) r
  return (event, r)

/-- `emit`. -/
def emit (r : Run) (line : PyStr) : Except PyErr Run :=
  if r.terminal.isSome then .ok r
  else do
    let line := line.take maxLineChars
    let r := { r with lines := r.lines.push line }
    let (_, r) ← r.publish (.log line)
    return r

/-- `payload` of `finish`; `recorded` is what `record_batch` returns or raises. -/
def endPayload (r : Run) (rc : Int) (now : Time) (recorded : Except PyErr BatchRef) :
    EndPayload :=
  let payload : EndPayload := ⟨rc, now - r.started, none, false⟩
  if r.workload = "all".toList then
    match recorded with
    | .ok batch => { payload with batch := some batch }
    | .error _ => { payload with historyError := true }
  else payload

/-- `finish`. -/
def finish (r : Run) (rc : Int) (now : Time) (recorded : Except PyErr BatchRef) :
    Except PyErr Run :=
  if r.terminal.isSome then .ok r
  else do
    let payload := r.endPayload rc now recorded
    let r := { r with returncode := some rc, ended := some now }
    let (event, r) ← r.publish (.end payload)
    return { r with terminal := some event }

/-- The `backlog` of `subscribe`, before the terminal event is added. -/
def replay (r : Run) (lastId : Nat) : List Event :=
  match r.events.items with
  | [] => []
  | oldest :: _ =>
      if lastId < oldest.id - 1 ∨ r.sequence < lastId then resetEvent :: r.events.items
      else r.events.items.filter (fun e => lastId < e.id)

/-- `backlog` with the terminal event, which is replayed even to a client that
has it already. -/
def backlog (r : Run) (lastId : Nat) : List Event :=
  match r.terminal with
  | some event =>
      if event ∈ r.replay lastId then r.replay lastId else r.replay lastId ++ [event]
  | none => r.replay lastId

/-- What `subscribe` returns. -/
structure Subscription where
  queue : QueueId
  backlog : List Event
  done : Bool

/-- `subscribe`. -/
def subscribe (r : Run) (lastId : Nat) : Except PyErr (Subscription × Run) :=
  if maxSubscribers ≤ r.subscribers.length then
    .error (.valueError "too many subscribers".toList)
  else
    let q := r.nextQueue
    let done := r.terminal.isSome
    let r' := { r with
      queues := update r.queues q .empty
      nextQueue := q + 1
      subscribers := if done then r.subscribers else r.subscribers ++ [q] }
    .ok (⟨q, r.backlog lastId, done⟩, r')

/-- `unsubscribe`. -/
def unsubscribe (r : Run) (q : QueueId) : Run :=
  { r with subscribers := r.subscribers.erase q }

/-- A subscriber's `q.get`: takes no lock. -/
def get (r : Run) (q : QueueId) : Option (Option Event × Run) :=
  match (r.queues q).getNowait with
  | some (item, queue) => some (item, { r with queues := update r.queues q queue })
  | none => none

end Run

end SrxProbe.Dashboard
