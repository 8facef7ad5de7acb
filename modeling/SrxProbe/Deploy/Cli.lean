import SrxProbe.Generators.LoadGen
import SrxProbe.Generators.WebCrawler

/-!
# The workload command line

The parser of the workload driver and its preflight: the options of each command, the
namespace that a command line is read to, the checks that are made on it before
anything is sent, and the suite that `all` runs.
-/

namespace SrxProbe.Deploy

open SrxProbe.Lib SrxProbe.Generators

/-! ## Commands and options -/

/-- The subcommands. -/
inductive Command
  | all | http | crawl | dns | handshake | eicar | gtube | scan | flood
  | malformed | badcsum | ttl | frag | deny | wrk | iperf
  deriving DecidableEq, Repr

namespace Command

/-- The subcommands by name. -/
def names : List (PyStr × Command) :=
  [("all".toList, all), ("http".toList, http), ("crawl".toList, crawl), ("dns".toList, dns),
    ("handshake".toList, handshake), ("eicar".toList, eicar), ("gtube".toList, gtube),
    ("scan".toList, scan), ("flood".toList, flood), ("malformed".toList, malformed),
    ("badcsum".toList, badcsum), ("ttl".toList, ttl), ("frag".toList, frag),
    ("deny".toList, deny), ("wrk".toList, wrk), ("iperf".toList, iperf)]

def ofName? (name : PyStr) : Option Command := names.lookup name

end Command

/-- The declared type of an option. -/
inductive ArgType
  | str
  | int
  | positiveInt
  deriving DecidableEq, Repr

/-- An `add_argument` call for an option with a value. `name` is without its dashes,
and `dest` the attribute that the value is stored under. -/
structure OptionSpec where
  name : PyStr
  dest : PyStr
  type : ArgType
  choices : Option (List PyStr)
  default : PyValue

namespace OptionSpec

/-- The token that announces the option's value. -/
def flag (option : OptionSpec) : PyStr := "--".toList ++ option.name

/-- The value of a token, by the declared type and choices. -/
def convert (option : OptionSpec) (token : PyStr) : Option PyValue :=
  match option.type with
  | .str =>
      match option.choices with
      | some choices => if token ∈ choices then some (.str token) else none
      | none => some (.str token)
  | .int => (parseInt token).map .int
  | .positiveInt => (parseInt token).bind fun n => if 0 < n then some (.int n) else none

end OptionSpec

/-- The attribute of an option that names none. -/
def destOf (name : PyStr) : PyStr := name.map fun c => if c = '-' then '_' else c

def strOption (name : String) (default : PyValue) : OptionSpec :=
  ⟨name.toList, destOf name.toList, .str, none, default⟩

def choiceOption (name : String) (choices : List String) (default : String) : OptionSpec :=
  ⟨name.toList, destOf name.toList, .str, some (choices.map String.toList), .str default.toList⟩

def intOption (name : String) (default : PyValue) : OptionSpec :=
  ⟨name.toList, destOf name.toList, .int, none, default⟩

/-- `--duration`, at `DEFAULT_DURATION_S`. -/
def durationOption : OptionSpec :=
  ⟨"duration".toList, "duration".toList, .positiveInt, none, .int 60⟩

/-- The option of a field of `WorkloadLimits`. -/
def limitOption (entry : PyStr × Int) : OptionSpec :=
  ⟨"limit-".toList ++ (entry.1.drop "max_".length).map fun c => if c = '_' then '-' else c,
    "limit_".toList ++ entry.1, .positiveInt, none, .int entry.2⟩

/-- The options in front of the command. -/
def mainOptions : List OptionSpec :=
  strOption "target" .none :: strOption "src" .none ::
    (WorkloadLimits.fields.zip defaultLimits.values).map limitOption

/-- The options of each subparser. -/
def options : Command → List OptionSpec
  | .all => [durationOption]
  | .http => [strOption "path" (.str "/".toList), intOption "port" (.int 80)]
  | .crawl => [strOption "path" (.str "/".toList),
      choiceOption "scheme" ["http", "https"] "http", intOption "port" .none,
      intOption "max-bytes" (.int 1048576), intOption "timeout" (.int 10)]
  | .dns => [strOption "qname" (.str "probe.lab".toList)]
  | .handshake => [intOption "port" (.int 22), strOption "app" (.str "SSH".toList)]
  | .eicar => [intOption "port" (.int 80)]
  | .gtube => [intOption "port" (.int 80)]
  | .scan => [choiceOption "type" ["syn", "xmas", "fin", "null", "ack"] "syn",
      intOption "max-ports" (.int 1024)]
  | .flood => [choiceOption "type" ["syn", "icmp", "udp"] "syn", intOption "port" (.int 80),
      intOption "count" (.int 2000), intOption "rate" (.int 500)]
  | .malformed => [intOption "port" (.int 80)]
  | .badcsum => [intOption "port" (.int 80)]
  | .ttl => [intOption "port" (.int 80), intOption "ttl" (.int 1)]
  | .frag => [intOption "port" (.int 80), intOption "count" (.int 8)]
  | .deny => [intOption "port" (.int 9)]
  | .wrk => [strOption "url" .none, intOption "connections" (.int 100),
      intOption "threads" (.int 4), durationOption]
  | .iperf => [intOption "port" (.int 5201), durationOption, intOption "parallel" (.int 4)]

/-! ## Namespaces -/

/-- The attributes of a namespace by name. -/
abbrev Attrs := PyStr → Option PyValue

/-- What a command line is read to: its command, its other attributes and the ceilings
put together from them. -/
structure Namespace where
  cmd : Command
  attrs : Attrs
  limits : Option WorkloadLimits

/-- `setattr` of every pair. -/
def setAttrs (pairs : List (PyStr × PyValue)) (attrs : Attrs) : Attrs :=
  pairs.foldl (fun attrs entry => update attrs entry.1 (some entry.2)) attrs

namespace Namespace

/-- `a.dest`. -/
def attr (a : Namespace) (dest : String) : Except PyErr PyValue :=
  orRaise (a.attrs dest.toList) .attributeError

/-- `a.dest`, for a callee that refuses what is not a `str` as it refuses an empty one. -/
def attrStr (a : Namespace) (dest : String) : Except PyErr PyStr := do
  .ok ((← a.attr dest).str?.getD [])

/-- `_args(a, **overrides)`. -/
def override (a : Namespace) (overrides : List (PyStr × PyValue)) : Namespace :=
  { a with attrs := setAttrs overrides a.attrs }

/-- `_limits(a)`. -/
def limitsOf (a : Namespace) : WorkloadLimits := a.limits.getD defaultLimits

end Namespace

/-! ## Preflight -/

/-- `command == "flood" and a.type == "icmp"`. -/
def isIcmpFlood (a : Namespace) (command : Command) : Except PyErr Bool :=
  if command = .flood then (a.attr "type").map (·.isStr "icmp".toList) else .ok false

/-- The port check in front of `validate_args`. Only the flood of `icmp` has port 0. -/
def validatePort (a : Namespace) (command : Command) : Except PyErr Unit :=
  match a.attrs "port".toList with
  | none | some .none => .ok ()
  | some port => do
      let icmp ← isIcmpFlood a command
      let _ ← boundedInt "port".toList port 65535 (if icmp then 0 else 1)

/-- The URL of a load: the one given, or the root of the target. -/
def loadUrl (a : Namespace) : Except PyErr PyStr := do
  let url ← a.attr "url"
  if url.truthy then orRaise url.str? .other
  else
    let target ← orRaise (← a.attr "target").text? .other
    .ok ("http://".toList ++ target ++ "/".toList)

/-- `validate_args`. -/
def validateArgs (a : Namespace) (command : Command) : Except PyErr Unit := do
  let limits := a.limitsOf
  validatePort a command
  match command with
  | .crawl => do
      validateLimits (← a.attr "max_bytes") (← a.attr "timeout")
      let _ ← targetUrl (← a.attrStr "target") (← a.attrStr "path") (← a.attrStr "scheme")
        (← a.attr "port")
  | .all => do let _ ← boundedInt "duration".toList (← a.attr "duration") limits.maxDurationS 1
  | .scan => do limits.scan (← a.attr "max_ports")
  | .flood => do
      limits.flood (← a.attr "type") (← a.attr "port") (← a.attr "count") (← a.attr "rate")
  | .frag => do
      let _ ← boundedInt "fragment count".toList (← a.attr "count") limits.maxFragments 1
  | .ttl => do let _ ← boundedInt "ttl".toList (← a.attr "ttl") 255 1
  | .wrk => do
      limits.wrk (← a.attr "connections") (← a.attr "threads") (← a.attr "duration")
      let _ ← httpPort (← loadUrl a)
  | .iperf => do
      limits.iperf (← a.attr "duration") (← a.attr "parallel") (← a.attr "port")
  | _ => .ok ()

/-! ## The suite -/

/-- A sender with the arguments it is called with. -/
structure Workload where
  name : PyStr
  func : Command
  args : Namespace

/-- A workload of the suite, with the attributes it overrides. -/
def workload (a : Namespace) (name : String) (func : Command)
    (overrides : List (String × PyValue)) : Workload :=
  ⟨name.toList, func, a.override (overrides.map fun entry => (entry.1.toList, entry.2))⟩

/-- The workloads of `build_all_workloads`. -/
def suite (a : Namespace) (duration : PyValue) : List Workload :=
  [workload a "http" .http [("path", .str "/".toList), ("port", .int 80)],
    workload a "dns" .dns [("qname", .str "probe.lab".toList)],
    workload a "handshake-ftp" .handshake [("port", .int 21), ("app", .str "FTP".toList)],
    workload a "eicar" .eicar [("port", .int 80)],
    workload a "gtube" .gtube [("port", .int 80)]] ++
  (["syn", "xmas", "fin"].map fun type =>
    workload a ("scan-" ++ type) .scan [("type", .str type.toList), ("max_ports", .int 1024)]) ++
  ([("syn", 80), ("icmp", 0), ("udp", 53)].map fun (type, port) =>
    workload a ("flood-" ++ type) .flood [("type", .str type.toList), ("port", .int port),
      ("count", .int 2000), ("rate", .int 500)]) ++
  [workload a "malformed" .malformed [("port", .int 80)],
    workload a "bad-checksum" .badcsum [("port", .int 80)],
    workload a "tiny-ttl" .ttl [("port", .int 80), ("ttl", .int 1)],
    workload a "fragments" .frag [("port", .int 80), ("count", .int 8)],
    workload a "denied-port" .deny [("port", .int 9)],
    workload a "wrk" .wrk [("url", .none), ("connections", .int 100), ("threads", .int 4),
      ("duration", duration)],
    workload a "iperf3" .iperf [("port", .int 5201), ("duration", duration),
      ("parallel", .int 4)]]

/-- `build_all_workloads`. -/
def buildAllWorkloads (a : Namespace) : Except PyErr (List Workload) := do
  let workloads := suite a (← a.attr "duration")
  let _ ← boundedInt "concurrent workloads".toList (.int workloads.length)
    a.limitsOf.maxWorkloads 1
  workloads.forM fun workload => validateArgs workload.args workload.func
  .ok workloads

/-! ## Parsing -/

/-- How `parse_args` ends without a namespace: the tokens do not fit the parser, or the
preflight raised. A `ValueError` is reported as a usage error, others are not caught. -/
inductive CliExit
  | arguments
  | refused (err : PyErr)
  | raised (err : PyErr)
  deriving DecidableEq, Repr

/-- The `except ValueError` of `parse_args`. -/
def reported {α : Type} (x : Except PyErr α) : Except CliExit α :=
  x.mapError fun err =>
    match err with
    | .valueError _ | .stdValueError | .admissionError _ => .refused err
    | _ => .raised err

/-- Each option token takes the next token as its value. Command lines are read as `make_cmd`
writes them: an option stands in full, and apart from its value. -/
def bindOptions (specs : List OptionSpec) (attrs : Attrs) : List PyStr → Except CliExit Attrs
  | [] => .ok attrs
  | [_] => .error .arguments
  | flag :: token :: rest => do
      let option ← orRaise (specs.find? (·.flag = flag)) .arguments
      let value ← orRaise (option.convert token) .arguments
      bindOptions specs (update attrs option.dest (some value)) rest

/-- The options up to the command, the command, and the tokens behind it, in such a command
line. -/
def bindMain (attrs : Attrs) : List PyStr → Except CliExit (Attrs × Command × List PyStr)
  | [] => .error .arguments
  | flag :: rest =>
      if flag = "--yes".toList then bindMain (update attrs "yes".toList (some (.bool true))) rest
      else
        match mainOptions.find? (·.flag = flag) with
        | none => do .ok (attrs, ← orRaise (Command.ofName? flag) .arguments, rest)
        | some option =>
            match rest with
            | [] => .error .arguments
            | token :: rest => do
                let value ← orRaise (option.convert token) .arguments
                bindMain (update attrs option.dest (some value)) rest

/-- The defaults of some options. -/
def defaults (specs : List OptionSpec) : List (PyStr × PyValue) :=
  specs.map fun option => (option.dest, option.default)

/-- The attributes before a token is read. -/
def startAttrs : List (PyStr × PyValue) := ("yes".toList, .bool false) :: defaults mainOptions

/-- The preflight of `parse_args`, on what the tokens were bound to. -/
def preflight (command : Command) (attrs : Attrs) : Except PyErr Namespace := do
  let values ← WorkloadLimits.fields.mapM fun field =>
    orRaise (attrs ("limit_".toList ++ field)) .attributeError
  let limits ← WorkloadLimits.ofValues values
  let a : Namespace := ⟨command, attrs, some limits⟩
  validateArgs a command
  if command = .all then
    let _ ← buildAllWorkloads a
  .ok a

/-- What `super().parse_args` makes of such a command line: the command and the attributes.
`--target` is required. -/
def readArgs (argv : List PyStr) : Except CliExit (Command × Attrs) := do
  let (attrs, command, rest) ← bindMain (setAttrs startAttrs fun _ => none) argv
  raiseIf ((attrs "target".toList).bind PyValue.str? = none) .arguments
  let attrs ← bindOptions (options command) (setAttrs (defaults (options command)) attrs) rest
  return (command, attrs)

/-- The attribute of the option is its default, or what its type makes of a token. -/
def OptionSpec.Bound (option : OptionSpec) (attrs : Attrs) : Prop :=
  attrs option.dest = some option.default ∨
    ∃ token v, option.convert token = some v ∧ attrs option.dest = some v

/-- What the documentation of `argparse` says of every `super().parse_args`, however it reads
abbreviations, `--option=value` and tokens that look like options: `--target` is required, and
the options of the command are bound. -/
structure Argparse (read : List PyStr → Except CliExit (Command × Attrs)) : Prop where
  target : ∀ argv command attrs, read argv = .ok (command, attrs) →
    ∃ target, attrs "target".toList = some (.str target)
  bound : ∀ argv command attrs, read argv = .ok (command, attrs) →
    ∀ option ∈ options command, option.Bound attrs

/-- `parse_args`, over a `super().parse_args`. -/
def parseWith (read : List PyStr → Except CliExit (Command × Attrs)) (argv : List PyStr) :
    Except CliExit Namespace := do
  let (command, attrs) ← read argv
  reported (preflight command attrs)

/-- `parse_args` of a command line of `make_cmd`. -/
def parseArgs : List PyStr → Except CliExit Namespace := parseWith readArgs

end SrxProbe.Deploy
