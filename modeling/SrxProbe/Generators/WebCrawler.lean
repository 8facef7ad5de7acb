import SrxProbe.Lib.Url
import SrxProbe.Lib.Value

/-!
# Preflight of the crawler

What a crawl is checked for before the page is fetched: its byte and time limits,
the path it asks for, and the URL put together from target, scheme, port and path.
-/

namespace SrxProbe.Generators

open SrxProbe.Lib

/-- `MAX_BYTES`. -/
def maxBytes : Int := 4194304

/-- `MAX_TIMEOUT`. -/
def maxTimeout : Int := 30

/-- One turn of the loop of `validate_limits`. -/
def validateLimit (name : PyStr) (value : PyValue) (maximum : Int) : Except PyErr Unit :=
  let error : PyErr := .valueError (name ++ " must be an integer in 1..".toList ++ intText maximum)
  match value with
  | .int n => if 1 ≤ n ∧ n ≤ maximum then .ok () else .error error
  | _ => .error error

/-- `validate_limits`. -/
def validateLimits (bytes timeout : PyValue) : Except PyErr Unit := do
  validateLimit "max_bytes".toList bytes maxBytes
  validateLimit "timeout".toList timeout maxTimeout

/-- `[\x00-\x1f\x7f\\]`. -/
def isHidden (c : Char) : Bool := c.toNat < 32 || c.toNat = 127 || c = '\\'

/-- A printable ASCII character. -/
def isPrintable (c : Char) : Bool := 32 < c.toNat && c.toNat < 127

/-- The path has none of the characters that a target-relative path must not have,
as it stands or behind percent escapes. -/
def isCleanPath (path : PyStr) : Bool :=
  !("//".toList.isPrefixOf path) && '\\' ∉ path && '#' ∉ path && path.all isPrintable &&
    !((unquote path).any isHidden)

/-- `validate_path`. -/
def validatePath (path : PyStr) : Except PyErr Unit :=
  if path.length > 2048 || !("/".toList.isPrefixOf path) || !isCleanPath path then
    .error (.valueError ("path must be an ASCII target-relative /path " ++
      "(no //, controls, backslashes or fragment)").toList)
  else .ok ()

def isHostChar (c : Char) : Bool := isAlnum c || c = '.' || c = '-'

/-- `[A-Za-z0-9][A-Za-z0-9.-]{0,252}`. -/
def isHostname (host : PyStr) : Bool :=
  match host with
  | c :: rest => isAlnum c && rest.all isHostChar && rest.length ≤ 252
  | [] => false

/-- `validate_url`. -/
def validateUrl (url : PyStr) : Except PyErr SplitResult := do
  raiseIf (4096 < url.length ∨ url.all isPrintable = false ∨ '\\' ∈ url)
    (.valueError "invalid HTTP(S) URL".toList)
  let required : PyErr := .valueError "HTTP(S) URL required, without credentials or fragment".toList
  let parsed ← orRaise (urlsplit url) .stdValueError
  raiseIf (parsed.scheme ∉ httpSchemes ∨ parsed.hostname = [] ∨ parsed.username ≠ none ∨
    parsed.password ≠ none ∨ parsed.fragment ≠ []) required
  let port ← orRaise parsed.port .stdValueError
  raiseIf (port = some 0) required
  raiseIf (ipAddress parsed.hostname = none ∧ isHostname parsed.hostname = false)
    (.valueError "invalid target hostname".toList)
  validatePath ((if parsed.path = [] then "/".toList else parsed.path) ++
    (if parsed.query = [] then [] else '?' :: parsed.query))
  .ok parsed

/-- The host that stands for a target in a URL. -/
def targetHost (target : PyStr) : Except PyErr PyStr :=
  match ipAddress target with
  | some (.v6 ip scopeId) => .ok ('[' :: (IpAddress.str (.v6 ip scopeId) ++ "]".toList))
  | some (.v4 ip) => .ok (IpAddress.str (.v4 ip))
  | none =>
      if isHostname target then .ok target
      else .error (.valueError "target must be an IP address or hostname".toList)

/-- The port of a URL with its colon. -/
def portSuffix (port : PyValue) : Except PyErr PyStr :=
  let error : PyErr := .valueError "port must be an integer in 1..65535".toList
  match port with
  | .none => .ok []
  | .int n => if 1 ≤ n ∧ n ≤ 65535 then .ok (':' :: intText n) else .error error
  | _ => .error error

/-- `target_url`. -/
def targetUrl (target path scheme : PyStr) (port : PyValue) : Except PyErr PyStr := do
  validatePath path
  raiseIf (target = []) (.valueError "target must be an IP address or hostname".toList)
  let host ← targetHost target
  let suffix ← portSuffix port
  let url := scheme ++ "://".toList ++ host ++ suffix ++ path
  let _ ← validateUrl url
  .ok url

end SrxProbe.Generators
