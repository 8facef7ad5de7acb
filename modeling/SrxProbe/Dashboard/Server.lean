import SrxProbe.Dashboard.Normal
import SrxProbe.Dashboard.Origin

/-!
# The server

What the handler makes of a POST, up to the call of `spawn_run` or `kill_run`, and the
dashboard as a whole: any number of requests being handled at once over one registry. The
steps a `kill_run` takes on its run are those of the worker's model; nothing the registry
reads is changed by them.
-/

namespace SrxProbe.Dashboard

open SrxProbe.Lib SrxProbe.Lib.Http

/-! ## Requests -/

/-- What the interpreter does where the model does not follow it: the check of a network
location outside ASCII, whether `is_loopback` looks into a mapped address, the decoding of a
body and whether it comes to a lone surrogate, `repr(float(text))`, the recursion limit, and the
texts of its own exceptions. -/
structure Runtime where
  nfkcSafe : PyStr → Bool
  looksInside : Bool
  decode : Bytes → Except PyErr PyStr
  surrogates : Bytes → Bool
  floatRepr : PyStr → PyStr
  recursionLimit : Nat
  errorText : PyErr → PyStr

/-- A POST: its target and headers, what the client sends behind them, and whether it then
keeps the connection open without sending more. -/
structure HttpRequest where
  target : PyStr
  headers : Headers
  sent : Bytes
  stalls : Bool
  deriving DecidableEq, Repr

/-- `self.rfile.read(length)`. -/
def HttpRequest.read (request : HttpRequest) (length : Nat) : Except PyErr Bytes :=
  if length ≤ request.sent.length then .ok (request.sent.take length)
  else if request.stalls then .error .osError
  else .ok request.sent

/-- `MAX_BODY`. -/
def maxBody : Nat := 16384

/-- The length of the body, where the request gives one. -/
def contentLength (headers : Headers) : Option Nat :=
  match getAll headers "Content-Length" with
  | [text] => if isShortNumber text then (parseInt text).map Int.toNat else none
  | _ => none

/-- The exceptions that the handler of a request body catches. -/
def isBadRequest : PyErr → Bool
  | .valueError _ => true
  | .stdValueError => true
  | .admissionError _ => true
  | .osError => true
  | .fileNotFoundError => true
  | .other => true
  | _ => false

/-- `str(e)`. -/
def Runtime.str (rt : Runtime) : PyErr → PyStr
  | .valueError message => message
  | .admissionError message => message
  | e => rt.errorText e

/-- What is read of the body. -/
def readBody (rt : Runtime) (request : HttpRequest) (length : Nat) :
    Except PyErr ValidRequest := do
  let raw ← request.read length
  raiseIf (raw.length ≠ length) (.valueError "incomplete request body".toList)
  let text ← rt.decode raw
  let body ← Json.loads rt.floatRepr rt.recursionLimit text
  validateRequest body

/-- What is read as the body has no lone surrogate, encoded or escaped. -/
def HttpRequest.paired (rt : Runtime) (request : HttpRequest) : Bool :=
  (contentLength request.headers).all fun length =>
    let raw := request.sent.take length
    !rt.surrogates raw && (rt.decode raw).toOption.all Json.paired

/-- A request id has at least 8 characters. -/
theorem requestId_nonempty {body : PyValue} {req : ValidRequest}
    (h : validateRequest body = .ok req) : req.requestId ≠ some [] := by
  obtain ⟨entries, spec, given, -, haccepts⟩ := validateRequest_ok_iff.mp h
  have hid := haccepts.requestId
  intro hnil
  rw [hnil] at hid
  unfold requestIdOf at hid
  split at hid
  · cases hid
  · cases hid
  · split at hid
    · rename_i id _ hvalid
      cases hid
      cases hvalid
    · cases hid
  · cases hid

theorem requestId_of_readBody {rt : Runtime} {request : HttpRequest} {length : Nat}
    {req : ValidRequest} (h : readBody rt request length = .ok req) : req.requestId ≠ some [] := by
  obtain ⟨raw, -, h⟩ := bind_ok_iff.mp h
  obtain ⟨-, h⟩ := seq_ok_iff.mp h
  obtain ⟨text, -, h⟩ := bind_ok_iff.mp h
  obtain ⟨body, -, h⟩ := bind_ok_iff.mp h
  exact requestId_nonempty h

/-- What the handler does next: it replies, calls `spawn_run`, or looks for a run to stop. -/
inductive PostAction
  | reply (reply : Reply)
  | spawn (call : Call)
  | find (id : PyStr)

/-- `do_POST`, up to the calls that concern runs. -/
def doPost (rt : Runtime) (config : ServerConfig) (request : HttpRequest) :
    Except PyErr PostAction := do
  match ← authorized rt.nfkcSafe rt.looksInside config request.headers true with
  | some reply => .ok (.reply reply)
  | none =>
      let p ← orRaise (urlparse rt.nfkcSafe request.target) .stdValueError
      if (get? request.headers "Transfer-Encoding").getD [] ≠ [] then
        .ok (.reply (errorReply 400 "Transfer-Encoding is not supported".toList))
      else
        match contentLength request.headers with
        | none => .ok (.reply (errorReply 400 "valid Content-Length required".toList))
        | some length =>
            if maxBody < length then .ok (.reply (errorReply 413 "request too large".toList))
            else if p.path = "/api/run".toList then
              if getContentType request.headers ≠ "application/json".toList then
                .ok (.reply (errorReply 415 "application/json required".toList))
              else
                match h : readBody rt request length with
                | .ok req => .ok (.spawn ⟨req.request, req.requestId, requestId_of_readBody h⟩)
                | .error e =>
                    if isBadRequest e then
                      .ok (.reply (errorReply 400 ("invalid request: ".toList ++ rt.str e)))
                    else .error e
            else if p.path = "/api/kill".toList then
              if length ≠ 0 then
                .ok (.reply (errorReply 400 "kill request must have an empty body".toList))
              else .ok (.find (queryValue p.query "id"))
            else .ok (.reply (errorReply 404 "not found".toList))

/-! ## The dashboard -/

/-- Where a request is. -/
inductive JobPc
  /-- in `spawn_run`, before it takes `RUNS_LOCK` -/
  | spawning
  /-- holding `RUNS_LOCK` -/
  | admitting
  /-- past the block, starting the worker if there is one to start -/
  | starting
  /-- in `_run`, before it takes `RUNS_LOCK` -/
  | finding (id : PyStr)
  /-- in `kill_run` -/
  | stopping (a : Addr)
  /-- replied, or dropped by an exception that nothing catches -/
  | done (reply : Option Reply)

/-- A request that is or was handled, with its call of `spawn_run` and the command line made
for it, and what the call came to. -/
structure Job where
  request : HttpRequest
  pc : JobPc
  launch : Option (Call × PyStr)
  outcome : Option Outcome

/-- The dashboard: the registry, all requests in the order they came in, and the one whose
call of `spawn_run` holds `RUNS_LOCK`. -/
structure Server where
  registry : Registry
  jobs : List Job
  owner : Option Nat

inductive ServerAct
  /-- a POST arrives, with no lone surrogate in its body; `hasVenv` is what `make_cmd` finds on
  the disk, if it is called -/
  | post (request : HttpRequest) (hasVenv : Bool)
  /-- a call of `spawn_run` takes the lock, looks at a run, or inserts its own -/
  | enter (i : Nat)
  | look
  | insert (id : PyStr) (now : Time)
  | start (a : Addr)
  | op (a : Addr) (op : Op)
  /-- `spawn_run` has returned or raised -/
  | reply (i : Nat)
  /-- a kill request looks its run up, and `kill_run` returns or raises -/
  | find (i : Nat)
  | stopped (i : Nat) (killed : Option Bool)

/-- `" ".join(shlex.quote(a) for a in argv)`. -/
def cmdlineOf (argv : List PyStr) : PyStr := [' '].intercalate (argv.map quote)

/-- `make_cmd` of a call, as the run reports it. -/
def commandLine (env : Env) (call : Call) : Except PyErr PyStr :=
  (makeCmd env call.request.workload call.request.target call.request.src call.request.params
    call.request.rootOk).map fun cmd => cmdlineOf cmd.1

/-- What becomes of a POST at once. -/
def handlePost (rt : Runtime) (config : ServerConfig) (env : Env) (request : HttpRequest) : Job :=
  match doPost rt config request with
  | .error _ => ⟨request, .done none, none, none⟩
  | .ok (.reply reply) => ⟨request, .done (some reply), none, none⟩
  | .ok (.find id) => ⟨request, .finding id, none, none⟩
  | .ok (.spawn call) =>
      match commandLine env call with
      | .ok cmdline => ⟨request, .spawning, some (call, cmdline), none⟩
      | .error _ => ⟨request, .done none, none, none⟩

/-- The reply to a call of `spawn_run`. -/
def spawnReply (heap : Addr → Run) : Outcome → Option Reply
  | .existing a | .admitted a => some (jsonReply 200 (.dict
      [("id".toList, .str (heap a).id), ("cmd".toList, .str (heap a).cmdline)]))
  | .raised (.admissionError message) => some (errorReply 409 message)
  | .raised _ => none

namespace Server

def setJob (s : Server) (i : Nat) (job : Job) : Server := { s with jobs := s.jobs.set i job }

/-- The owner of the lock goes on inside the block, or leaves it with its outcome. -/
def settle (s : Server) (i : Nat) (job : Job) (registry : Registry) : Server :=
  match registry.holder, registry.answered.getLast? with
  | .free, some (_, outcome) =>
      { s with
        registry
        jobs := s.jobs.set i { job with pc := .starting, outcome := some outcome }
        owner := none }
  | _, _ => { s with registry }

/-- The worker of an admitted run has been started, or the run has been ended for want of
one. -/
def mayReturn (registry : Registry) : Outcome → Bool
  | .admitted a => a ∉ registry.starting || (registry.heap a).ended.isSome
  | _ => true

def step (rt : Runtime) (config : ServerConfig) (env : Env) (s : Server) :
    ServerAct → Option Server
  | .post request hasVenv =>
      if request.paired rt then
        some { s with jobs := s.jobs ++ [handlePost rt config { env with hasVenv } request] }
      else none
  | .enter i => do
      let job ← s.jobs[i]?
      match job.pc, job.launch with
      | .spawning, some (call, _) =>
          let registry ← s.registry.step (.enter call)
          some { registry, jobs := s.jobs.set i { job with pc := .admitting }, owner := some i }
      | _, _ => none
  | .look => do
      let i ← s.owner
      let job ← s.jobs[i]?
      (s.registry.step .look).map (s.settle i job)
  | .insert id now => do
      let i ← s.owner
      let job ← s.jobs[i]?
      let (_, cmdline) ← job.launch
      (s.registry.step (.insert id cmdline now)).map (s.settle i job)
  | .start a => (s.registry.step (.start a)).map ({ s with registry := · })
  | .op a op => (s.registry.step (.op a op)).map ({ s with registry := · })
  | .reply i => do
      let job ← s.jobs[i]?
      match job.pc, job.outcome with
      | .starting, some outcome =>
          if mayReturn s.registry outcome then
            some (s.setJob i { job with pc := .done (spawnReply s.registry.heap outcome) })
          else none
      | _, _ => none
  | .find i => do
      let job ← s.jobs[i]?
      match job.pc, s.registry.holder with
      | .finding id, .free =>
          match s.registry.runs.get? id with
          | none =>
              let reply := errorReply 404 "unknown run".toList
              some (s.setJob i { job with pc := .done (some reply) })
          | some a => some (s.setJob i { job with pc := .stopping a })
      | _, _ => none
  | .stopped i killed => do
      let job ← s.jobs[i]?
      match job.pc with
      | .stopping _ =>
          some (s.setJob i { job with pc := .done (killed.map fun k =>
            jsonReply 200 (.dict [("killed".toList, .bool k)])) })
      | _ => none

/-- `main` opens no socket unless `allowed_origins` returns. -/
def Initial (rt : Runtime) (config : ServerConfig) (s : Server) : Prop :=
  (∃ origins, allowedOrigins rt.nfkcSafe rt.looksInside config = .ok origins) ∧
    s.registry.Initial ∧ s.jobs = [] ∧ s.owner = none

def system (rt : Runtime) (config : ServerConfig) (env : Env) : TSys Server ServerAct :=
  TSys.ofFn (Initial rt config) (step rt config env)

end Server

end SrxProbe.Dashboard
