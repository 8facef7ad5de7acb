import SrxProbe.Dashboard.Replay

/-!
# The live stream, step by step

The publisher and the stream handlers of one run, at the grain at which they can
interleave. `emit`, `finish`, `subscribe` and `unsubscribe` hold the run's lock,
so only one of them is under way at a time; a handler's `q.get` takes no lock and
may fall between any two queue operations of `_publish`.
-/

namespace SrxProbe.Dashboard

open SrxProbe.Lib

/-- Where the holder of the run's lock is in `_publish`. `todo` is what is left
of the copy of the subscriber set. -/
inductive PubPc
  /-- the lock is free -/
  | idle
  /-- at the head of the loop over the subscribers -/
  | offering (event : Event) (todo : List QueueId)
  /-- in the `get_nowait` loop over the full queue `q`; `discarded` tells whether
  it has taken an item yet -/
  | draining (event : Event) (q : QueueId) (discarded : Bool) (todo : List QueueId)
  /-- past `queue.Empty`, before `put_nowait(None)` -/
  | marking (event : Event) (q : QueueId) (todo : List QueueId)
  deriving DecidableEq, Repr

/-- Where a stream handler is. -/
inductive ClientPc
  /-- not connected -/
  | away
  /-- writing the backlog; `done` tells that the run had finished -/
  | writing (q : QueueId) (rest : List Event) (done : Bool)
  /-- in the `q.get` loop -/
  | waiting (q : QueueId)
  /-- about to write an event taken from its queue -/
  | holding (q : QueueId) (event : Event)
  /-- in the `finally` block -/
  | leaving (q : QueueId)
  deriving DecidableEq, Repr

/-- A client over all its connections: `written` is what it has been sent. -/
structure Client where
  pc : ClientPc
  written : List Event
  deriving DecidableEq, Repr

/-- The id a list of events ends at; 0 for a client that has seen none. -/
def lastId (events : List Event) : Nat :=
  match events.getLast? with
  | some e => e.id
  | none => 0

abbrev ClientId := Nat

structure StreamState where
  run : Run
  pub : PubPc
  clients : ClientId → Client

inductive StreamAct
  /-- `emit` or `finish` takes the lock; the copy of the subscriber set is in
  some order -/
  | begin (op : Op) (order : List QueueId)
  /-- the lock holder makes its next queue operation, or releases the lock -/
  | publisher
  | subscribe (c : ClientId)
  | write (c : ClientId)
  | get (c : ClientId)
  /-- a write fails, or the client goes away -/
  | drop (c : ClientId)
  | unsubscribe (c : ClientId)

namespace Run

/-- The part of `emit` and `finish` before the loop of `_publish`; `none` when the
run has ended. -/
def beginPublish (r : Run) : Op → Option (Event × Run)
  | .emit line =>
      if r.terminal.isSome then none
      else
        let line := line.take maxLineChars
        some ({ r with lines := r.lines.push line }.record (.log line))
  | .finish rc now recorded =>
      if r.terminal.isSome then none
      else
        let payload := r.endPayload rc now recorded
        some ({ r with returncode := some rc, ended := some now }.record (.end payload))
  | _ => none

end Run

namespace StreamState

def setClient (s : StreamState) (c : ClientId) (client : Client) : StreamState :=
  { s with clients := update s.clients c client }

/-- The next step of the lock holder. An exception would leave `_publish` and
free the lock. -/
def publisherStep (s : StreamState) : Option StreamState :=
  match s.pub with
  | .idle => none
  | .offering event [] =>
      some { s with
        run := { s.run with terminal := if event.isEnd then some event else s.run.terminal }
        pub := .idle }
  | .offering event (q :: todo) =>
      match (s.run.queues q).putNowait (some event) with
      | some queue =>
          some { s with
            run := { s.run with queues := update s.run.queues q queue }
            pub := .offering event todo }
      | none =>
          match pyRemove s.run.subscribers q with
          | .ok subscribers =>
              some { s with
                run := { s.run with subscribers }
                pub := .draining event q false todo }
          | .error _ => some { s with pub := .idle }
  | .draining event q _ todo =>
      match (s.run.queues q).getNowait with
      | some (_, queue) =>
          some { s with
            run := { s.run with queues := update s.run.queues q queue }
            pub := .draining event q true todo }
      | none => some { s with pub := .marking event q todo }
  | .marking event q todo =>
      match (s.run.queues q).putNowait none with
      | some queue =>
          some { s with
            run := { s.run with queues := update s.run.queues q queue }
            pub := .offering event todo }
      | none => some { s with pub := .idle }

/-- `subscribe` with the id of the last event written, as `Last-Event-ID`. -/
def clientSubscribe (s : StreamState) (c : ClientId) : Option StreamState :=
  let client := s.clients c
  match s.pub, client.pc with
  | .idle, .away =>
      match s.run.subscribe (lastId client.written) with
      | .ok (sub, run) =>
          some ({ s with run }.setClient c
            { client with pc := .writing sub.queue sub.backlog sub.done })
      | .error _ => some s
  | _, _ => none

/-- Write the next event, or go on to the `q.get` loop after the backlog. -/
def clientWrite (s : StreamState) (c : ClientId) : Option StreamState :=
  let client := s.clients c
  match client.pc with
  | .writing q (event :: rest) done =>
      some (s.setClient c ⟨.writing q rest done, client.written ++ [event]⟩)
  | .writing q [] done =>
      some (s.setClient c { client with pc := if done then .leaving q else .waiting q })
  | .holding q event =>
      some (s.setClient c
        ⟨if event.isEnd then .leaving q else .waiting q, client.written ++ [event]⟩)
  | _ => none

/-- `q.get`; on `queue.Empty` the handler stays in its loop. -/
def clientGet (s : StreamState) (c : ClientId) : Option StreamState :=
  let client := s.clients c
  match client.pc with
  | .waiting q =>
      match s.run.get q with
      | some (some event, run) =>
          some ({ s with run }.setClient c { client with pc := .holding q event })
      | some (none, run) =>
          some ({ s with run }.setClient c { client with pc := .leaving q })
      | none => some s
  | _ => none

def clientDrop (s : StreamState) (c : ClientId) : Option StreamState :=
  let client := s.clients c
  match client.pc with
  | .writing q _ _ => some (s.setClient c { client with pc := .leaving q })
  | .waiting q => some (s.setClient c { client with pc := .leaving q })
  | .holding q _ => some (s.setClient c { client with pc := .leaving q })
  | _ => none

def clientUnsubscribe (s : StreamState) (c : ClientId) : Option StreamState :=
  let client := s.clients c
  match s.pub, client.pc with
  | .idle, .leaving q =>
      some ({ s with run := s.run.unsubscribe q }.setClient c { client with pc := .away })
  | _, _ => none

def step (s : StreamState) : StreamAct → Option StreamState
  | .begin op order =>
      if s.pub = .idle ∧ order.Perm s.run.subscribers then
        match s.run.beginPublish op with
        | some (event, run) => some { s with run, pub := .offering event order }
        | none => some s
      else none
  | .publisher => s.publisherStep
  | .subscribe c => s.clientSubscribe c
  | .write c => s.clientWrite c
  | .get c => s.clientGet c
  | .drop c => s.clientDrop c
  | .unsubscribe c => s.clientUnsubscribe c

/-- A new run, and clients that have not connected. -/
def Initial (s : StreamState) : Prop :=
  (∃ id cmdline workload now, s.run = Run.new id cmdline workload now) ∧
    s.pub = .idle ∧ ∀ c, s.clients c = ⟨.away, []⟩

def system : TSys StreamState StreamAct := TSys.ofFn Initial step

end StreamState

end SrxProbe.Dashboard
