import SrxProbe.Dashboard.Run
import SrxProbe.Lib.Url
import SrxProbe.Lib.Value

/-!
# Requests and the commands they run

The catalogue of workloads, the validation of a request body against it, and the
command line that an admitted request runs, on this host or over SSH.
-/

namespace SrxProbe.Dashboard

open SrxProbe.Lib

/-! ## Catalogue -/

/-- The kind of a parameter with its default and choices. -/
inductive ParamKind
  | int (default : Int)
  | str (default : PyStr) (choices : Option (List PyStr))
  deriving DecidableEq, Repr

/-- A parameter of a workload. -/
structure ParamSpec where
  name : PyStr
  kind : ParamKind
  deriving DecidableEq, Repr

/-- An entry of `WORKLOADS`. -/
structure WorkloadSpec where
  name : PyStr
  root : Bool
  aggressive : Bool
  params : List ParamSpec
  deriving DecidableEq, Repr

def intParam (name : String) (default : Int) : ParamSpec := ⟨name.toList, .int default⟩

def strParam (name default : String) : ParamSpec := ⟨name.toList, .str default.toList none⟩

def choiceParam (name default : String) (choices : List String) : ParamSpec :=
  ⟨name.toList, .str default.toList (some (choices.map String.toList))⟩

/-- `WORKLOADS`. -/
def workloads : List WorkloadSpec :=
  [⟨"http".toList, false, false, [intParam "port" 80, strParam "path" "/"]⟩,
    ⟨"crawl".toList, false, false, [strParam "path" "/", intParam "port" 80,
      choiceParam "scheme" "http" ["http", "https"], intParam "max-bytes" 1048576,
      intParam "timeout" 10]⟩,
    ⟨"dns".toList, false, false, [strParam "qname" "probe.lab"]⟩,
    ⟨"handshake".toList, false, false, [intParam "port" 22,
      choiceParam "app" "SSH" ["SSH", "FTP", "HTTP"]]⟩,
    ⟨"eicar".toList, false, false, [intParam "port" 80]⟩,
    ⟨"gtube".toList, false, false, [intParam "port" 80]⟩,
    ⟨"scan".toList, true, true, [choiceParam "type" "syn" ["syn", "xmas", "fin", "null", "ack"],
      intParam "max-ports" 1024]⟩,
    ⟨"flood".toList, true, true, [choiceParam "type" "syn" ["syn", "icmp", "udp"],
      intParam "port" 80, intParam "count" 2000, intParam "rate" 500]⟩,
    ⟨"malformed".toList, true, true, [intParam "port" 80]⟩,
    ⟨"badcsum".toList, true, true, [intParam "port" 80]⟩,
    ⟨"ttl".toList, true, true, [intParam "port" 80, intParam "ttl" 1]⟩,
    ⟨"frag".toList, true, true, [intParam "port" 80, intParam "count" 8]⟩,
    ⟨"deny".toList, true, true, [intParam "port" 9]⟩,
    ⟨"wrk".toList, false, false, [intParam "connections" 100, intParam "threads" 4,
      intParam "duration" 60]⟩,
    ⟨"iperf".toList, false, false, [intParam "port" 5201, intParam "parallel" 4,
      intParam "duration" 60]⟩,
    ⟨"all".toList, true, true, [intParam "duration" 60]⟩]

/-- `WORKLOADS[name]`, where there is one. -/
def workload? (name : PyStr) : Option WorkloadSpec := workloads.find? (·.name = name)

/-! ## Validation -/

/-- A control character. -/
def isControl (c : Char) : Bool := c.toNat < 32 || c.toNat = 127

/-- The `text` of `validate_request`. -/
def text (value : PyValue) (label : PyStr) (limit : Nat) : Except PyErr PyStr := do
  let s ← orRaise value.str? (.valueError ("invalid ".toList ++ label))
  raiseIf (limit < s.length ∨ s.any isControl = true) (.valueError ("invalid ".toList ++ label))
  .ok (strip s)

/-- `[A-Za-z0-9.:%_-]`. -/
def isTargetChar (c : Char) : Bool :=
  isAlnum c || c = '.' || c = ':' || c = '%' || c = '_' || c = '-'

/-- `[A-Za-z0-9][A-Za-z0-9.:%_-]*`. -/
def isTarget (s : PyStr) : Bool := s.head?.any isAlnum && s.tail.all isTargetChar

/-- `[A-Za-z0-9_-]{8,80}`. -/
def isRequestId (s : PyStr) : Bool :=
  8 ≤ s.length && s.length ≤ 80 && s.all fun c => isAlnum c || c = '_' || c = '-'

/-- `[A-Za-z0-9_][A-Za-z0-9_.-]*`. -/
def isQname (s : PyStr) : Bool :=
  s.head?.any (fun c => isAlnum c || c = '_') &&
    s.tail.all fun c => isAlnum c || c = '_' || c = '.' || c = '-'

/-- `[0-9]{1,8}`. -/
def isShortNumber (s : PyStr) : Bool :=
  1 ≤ s.length && s.length ≤ 8 && s.all (inRange '0' '9')

/-- A path that a crawl is not admitted for. -/
def isForeignPath (path : PyStr) : Bool :=
  "//".toList.isPrefixOf path || '\\' ∈ path || '#' ∈ path ||
    path.any (fun c => c.toNat ≤ 32 || 127 ≤ c.toNat) ||
    (unquote path).any fun c => c.toNat < 32 || c.toNat = 127 || c = '\\'

/-- The upper bounds of the integer parameters. -/
def limits (workload : PyStr) : List (PyStr × Int) :=
  [("port".toList, 65535), ("max-ports".toList, 4096), ("ttl".toList, 255),
    ("duration".toList, 300), ("count".toList, if workload = "frag".toList then 64 else 10000),
    ("rate".toList, 1000), ("connections".toList, 10000), ("threads".toList, 64),
    ("parallel".toList, 32), ("max-bytes".toList, 4194304), ("timeout".toList, 30)]

/-- The number a value stands for. -/
def readNumber (name : PyStr) (value : PyValue) : Except PyErr Int :=
  let notInteger : PyErr := .valueError (name ++ " must be an integer".toList)
  match value with
  | .int n => .ok n
  | .str s => if isShortNumber s then orRaise (parseInt s) .stdValueError else .error notInteger
  | _ => .error notInteger

/-- The value of an integer parameter. -/
def cleanInt (workload name : PyStr) (value : PyValue) : Except PyErr Int := do
  let n ← readNumber name value
  let limit ← orRaise ((limits workload).lookup name) .keyError
  raiseIf (¬ (1 ≤ n ∧ n ≤ limit)) (.valueError (name ++ " out of range".toList))
  .ok n

/-- The value of a text parameter. -/
def cleanText (workload name : PyStr) (choices : Option (List PyStr)) (value : PyValue) :
    Except PyErr PyStr := do
  let s ← text value name (if name = "path".toList then 2048 else 253)
  raiseIf (s = [] ∨ ∃ list ∈ choices, s ∉ list) (.valueError ("invalid ".toList ++ name))
  raiseIf (name = "path".toList ∧ s.head? ≠ some '/')
    (.valueError "path must start with /".toList)
  raiseIf (workload = "crawl".toList ∧ name = "path".toList ∧ isForeignPath s = true)
    (.valueError "crawl path must be target-relative without controls or fragments".toList)
  raiseIf (name = "qname".toList ∧ isQname s = false) (.valueError "invalid qname".toList)
  .ok s

/-- One turn of the loop over the parameters. -/
def cleanParam (workload : PyStr) (params : List (PyStr × PyValue)) (spec : ParamSpec) :
    Except PyErr (PyStr × ParamValue) :=
  let given (default : PyValue) : PyValue :=
    let value := (params.lookup spec.name).getD default
    if value.isEmptyStr then default else value
  match spec.kind with
  | .int default => do
      .ok (spec.name, .int (← cleanInt workload spec.name (given (.int default))))
  | .str default choices => do
      .ok (spec.name, .str (← cleanText workload spec.name choices (given (.str default))))

/-- `clean[name]` of an integer parameter. -/
def intOf (clean : List (PyStr × ParamValue)) (name : String) : Except PyErr Int :=
  match clean.lookup name.toList with
  | some (.int n) => .ok n
  | _ => .error .keyError

/-- The checks that relate two parameters. -/
def checkRelated (workload : PyStr) (clean : List (PyStr × ParamValue)) : Except PyErr Unit := do
  if workload = "wrk".toList then
    raiseIf ((← intOf clean "threads") > (← intOf clean "connections"))
      (.valueError "threads must not exceed connections".toList)
  if workload = "flood".toList then
    let rate ← intOf clean "rate"
    raiseIf ((← intOf clean "count") * ((1000000 + rate - 1) / rate) > 300000000)
      (.valueError "paced flood exceeds 300 seconds".toList)

/-- What `validate_request` returns. -/
structure ValidRequest where
  workload : PyStr
  target : PyStr
  src : PyStr
  params : List (PyStr × ParamValue)
  requestId : Option PyStr
  deriving DecidableEq, Repr

/-- The fields of a request body. -/
def bodyFields : List PyStr :=
  ["workload".toList, "target".toList, "src".toList, "params".toList,
    "confirm_aggressive".toList, "request_id".toList]

/-- The entries of a dict, whose keys are distinct. -/
def entriesOf (value : PyValue) (err : PyErr) : Except PyErr (List (PyStr × PyValue)) :=
  match value with
  | .dict entries => .ok entries
  | _ => .error err

/-- `body.get("confirm_aggressive")`, `false` where it is absent. -/
def confirmedOf (body : List (PyStr × PyValue)) : Except PyErr Bool :=
  match body.lookup "confirm_aggressive".toList with
  | none => .ok false
  | some (.bool confirmed) => .ok confirmed
  | some _ => .error (.valueError "confirm_aggressive must be boolean".toList)

/-- `body.get("request_id")`. -/
def requestIdOf (body : List (PyStr × PyValue)) : Except PyErr (Option PyStr) :=
  let invalid : PyErr := .valueError "invalid request_id".toList
  match body.lookup "request_id".toList with
  | none | some .none => .ok none
  | some (.str id) => if isRequestId id then .ok (some id) else .error invalid
  | some _ => .error invalid

/-- `validate_request`. -/
def validateRequest (body : PyValue) : Except PyErr ValidRequest := do
  let unknown : PyErr := .valueError "invalid request object or unknown fields".toList
  let body ← entriesOf body unknown
  raiseIf (∃ entry ∈ body, entry.1 ∉ bodyFields) unknown
  let spec ← orRaise (((body.lookup "workload".toList).bind PyValue.str?).bind workload?)
    (.valueError "unknown workload".toList)
  let target ← text ((body.lookup "target".toList).getD .none) "target".toList 253
  raiseIf (isTarget target = false) (.valueError "target must be an IP address or hostname".toList)
  let src ← text ((body.lookup "src".toList).getD (.str [])) "src".toList 45
  raiseIf (src ≠ [] ∧ ipAddress src = none) .stdValueError
  let confirmed ← confirmedOf body
  raiseIf (spec.aggressive = true ∧ confirmed = false)
    (.valueError "explicit aggressive confirmation required".toList)
  let requestId ← requestIdOf body
  let invalid : PyErr := .valueError "invalid params or unknown parameter".toList
  let params ← entriesOf ((body.lookup "params".toList).getD (.dict [])) invalid
  raiseIf (∃ entry ∈ params, entry.1 ∉ spec.params.map ParamSpec.name) invalid
  let clean ← spec.params.mapM (cleanParam spec.name params)
  checkRelated spec.name clean
  .ok ⟨spec.name, target, src, clean, requestId⟩

/-! ## Commands -/

/-- What `make_cmd` reads of its surroundings: the client from the environment, and the
directory of the repository with the interpreter that is found there. -/
structure Env where
  clientHost : PyStr
  clientRepo : PyStr
  parent : PyStr
  hasVenv : Bool
  executable : PyStr
  deriving DecidableEq, Repr

/-- `str(parent / rest)`. -/
def joinPath (parent rest : PyStr) : PyStr :=
  if parent = "/".toList then '/' :: rest else parent ++ '/' :: rest

/-- A parameter as a Python value. -/
def ParamValue.value : ParamValue → PyValue
  | .int n => .int n
  | .str s => .str s

/-- `str(value)` of a parameter. -/
def ParamValue.text : ParamValue → PyStr
  | .int n => intText n
  | .str s => s

/-- The tokens of one parameter. An absent or empty value is left out. -/
def paramArgs (params : List (PyStr × ParamValue)) (param : ParamSpec) : List PyStr :=
  match (params.lookup param.name).map ParamValue.text with
  | none | some [] => []
  | some value => ["--".toList ++ param.name, value]

/-- The tokens behind the path of the CLI. -/
def cliArgs (spec : WorkloadSpec) (target src : PyStr) (params : List (PyStr × ParamValue)) :
    List PyStr :=
  ["--target".toList, target] ++ (if src = [] then [] else ["--src".toList, src]) ++
    ["--yes".toList, spec.name] ++ spec.params.flatMap (paramArgs params)

/-- A character that the shell leaves alone. -/
def isShellSafe (c : Char) : Bool :=
  isAlnum c || c ∈ ['_', '@', '%', '+', '=', ':', ',', '.', '/', '-']

/-- `shlex.quote`. -/
def quote (s : PyStr) : PyStr :=
  if s = [] then "''".toList
  else if s.all isShellSafe then s
  else '\'' :: (s.flatMap fun c => if c = '\'' then "'\"'\"'".toList else [c]) ++ "'".toList

/-- `make_cmd`: the command line, and whether it starts with `sudo`. -/
def makeCmd (env : Env) (workload target src : PyStr) (params : List (PyStr × ParamValue))
    (rootOk : Bool) : Except PyErr (List PyStr × Bool) := do
  let spec ← orRaise (workload? workload) .keyError
  let remote := env.clientHost ≠ []
  let python :=
    if remote then env.clientRepo ++ "/venv/bin/python".toList
    else if env.hasVenv then joinPath env.parent "venv/bin/python".toList
    else env.executable
  let cli :=
    if remote then env.clientRepo ++ "/deploy/srx_workload.py".toList
    else joinPath env.parent "deploy/srx_workload.py".toList
  let useSudo := spec.root && rootOk
  let argv := (if useSudo then ["sudo".toList, "-n".toList] else []) ++
    [python, cli] ++ cliArgs spec target src params
  if remote then
    let command := "cd ".toList ++ quote env.clientRepo ++ " && exec ".toList ++
      [' '].intercalate (argv.map quote)
    .ok (["ssh".toList, "-o".toList, "BatchMode=yes".toList, "-o".toList,
      "ServerAliveInterval=15".toList, "-o".toList, "ServerAliveCountMax=3".toList,
      "-tt".toList, env.clientHost, command], useSudo)
  else .ok (argv, useSudo)

end SrxProbe.Dashboard
