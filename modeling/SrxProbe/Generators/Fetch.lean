import SrxProbe.Generators.Connect
import SrxProbe.Generators.Endpoint

/-!
# Fetching a page

The first half of `crawl_page`: one request, the checks of the response's head, and the
reading of its body up to a byte limit. What the server, the network and the clock do
comes from outside, call by call. The result record is handed on through the
statements, so that what was written before an exception stays.
-/

namespace SrxProbe.Generators

open SrxProbe.Lib

/-! ## Exceptions -/

/-- The classes that the handlers of `crawl_page` tell apart. -/
inductive ExcClass
  | osError
  | valueError
  | httpException
  | lookupError
  | typeError
  | assertionError
  deriving DecidableEq, Repr

/-- An exception: the class that a handler sees in it, its own name, its text, and the
bytes that an `IncompleteRead` brings. -/
structure Exc where
  cls : ExcClass
  name : PyStr
  text : PyStr
  got : Option Bytes
  deriving DecidableEq, Repr

/-- The exceptions of a call that raises these classes only. -/
abbrev Raises (classes : List ExcClass) := {e : Exc // e.cls ∈ classes}

/-- What the handler of the fetch names. -/
def fetchCaught : List ExcClass := [.osError, .valueError, .httpException]

namespace Exc

def ofOSError (e : OSError) : Exc := ⟨.osError, e.name, e.message, none⟩

/-- `ValueError(message)`. -/
def value (message : String) : Exc := ⟨.valueError, "ValueError".toList, message.toList, none⟩

/-- `str(exc)[:512] or type(exc).__name__`. -/
def summary (e : Exc) : PyStr :=
  if (e.text.take 512).isEmpty then e.name else e.text.take 512

end Exc

/-! ## The world -/

/-- What is asked of the server. -/
structure Request where
  scheme : PyStr
  hostname : PyStr
  port : Option Int
  path : PyStr
  deriving DecidableEq, Repr

/-- A response. The `i`th call of `read1` returns no more than it is asked for. -/
structure Response where
  status : Int
  getheader : PyStr → Option PyStr
  read1 : Nat → (n : Nat) → Except (Raises fetchCaught) {chunk : Bytes // chunk.length ≤ n}

/-- What the clock reads when a crawl looks at it. -/
structure Clock where
  started : Time
  begun : Time
  opening : Time
  reading : Nat → Time
  decoding : Nat → Time
  closing : Time
  finished : Time

/-- `get_content_type` and `get_content_charset` of a message with this header. Reading
the parameters of a header can fail in ways that are not documented. -/
structure HeaderLib where
  contentType : PyStr → PyStr
  contentCharset : PyStr → Except Exc (Option PyStr)

/-- The connection, the response and the clock. -/
structure Web where
  clock : Clock
  header : HeaderLib
  getresponse : Request → Except (Raises fetchCaught) Response

inductive ExecutionStatus
  | failed
  | succeeded
  deriving DecidableEq, Repr

/-- The result of `crawl_page`. -/
structure CrawlResult where
  url : PyStr
  statusCode : Option Int
  bytesReceived : Nat
  elapsed : Time
  responseComplete : Bool
  truncated : Bool
  title : PyStr
  text : PyStr
  links : List PyStr
  outputTruncated : Bool
  contentType : PyStr
  charset : PyStr
  executionStatus : ExecutionStatus
  detectionStatus : PyStr
  error : PyStr
  deriving DecidableEq, Repr

/-- The result before the request. -/
def CrawlResult.initial (url : PyStr) : CrawlResult :=
  ⟨url, none, 0, 0, false, false, [], [], [], false, [], [], .failed, "not_evaluated".toList, []⟩

/-! ## The head of the response -/

namespace Response

variable (response : Response)

/-- A redirect. -/
def isRedirect : Bool := 300 ≤ response.status && response.status < 400

/-- The body comes as it is. -/
def isIdentity : Bool :=
  ["".toList, "identity".toList].contains
    (strip (lower ((response.getheader "Content-Encoding".toList).getD "identity".toList)))

/-- The header that names type and charset. -/
def contentTypeHeader : PyStr :=
  (response.getheader "Content-Type".toList).getD "application/octet-stream".toList

/-- The declared length, if there is one. -/
def expected : Except Exc (Option Int) :=
  match response.getheader "Content-Length".toList with
  | none => .ok none
  | some length => do
      raiseIf
        ((length.all IpAddress.isAsciiDigit && 1 ≤ length.length && length.length ≤ 20) = false)
        (.value "invalid Content-Length")
      let n ← orRaise (parseInt length) (.value "invalid literal for int()")
      .ok (some n)

/-- The transfer coding leaves no doubt about the length. -/
def checkFraming (expected : Option Int) : Except Exc Unit :=
  let coding := (response.getheader "Transfer-Encoding".toList).getD []
  raiseIf (coding ≠ [] ∧ (strip (lower coding) ≠ "chunked".toList ∨ expected ≠ none))
    (.value "ambiguous or unsupported response framing")

end Response

/-- Where the head of the response leaves the crawl: the result, the declared charset, and
the response with its declared length. -/
structure Opened where
  result : CrawlResult
  declared : Option PyStr
  outcome : Except Exc (Response × Option Int)

/-- From the connection to the framing of the body. -/
def openResponse (web : Web) (d : Deadline) (request : Request) (r : CrawlResult) : Opened :=
  match d.remaining web.clock.opening with
  | .error e => ⟨r, none, .error (.ofOSError e)⟩
  | .ok _ =>
      match web.getresponse request with
      | .error e => ⟨r, none, .error e⟩
      | .ok response =>
          let r := { r with statusCode := some response.status }
          if response.isRedirect then
            ⟨r, none, .error (.value "redirect rejected; no redirect destination fetched")⟩
          else if !response.isIdentity then
            ⟨r, none, .error (.value "unsupported Content-Encoding; identity required")⟩
          else
            let r := { r with
              contentType := (web.header.contentType response.contentTypeHeader).take 128 }
            match web.header.contentCharset response.contentTypeHeader with
            | .error e => ⟨r, none, .error e⟩
            | .ok charset =>
                let declared := charset.filter fun c => c.length ≤ 64
                let named := declared.getD []
                let r := { r with charset := if named.isEmpty then "utf-8".toList else named }
                ⟨r, declared, do
                  let expected ← response.expected
                  response.checkFraming expected
                  .ok (response, expected)⟩

/-! ## The body -/

/-- The body within a limit, with the turns of the loop, the chunks that were delivered,
whether the limit cut them, and what was raised. -/
structure Reading (limit : Nat) where
  body : Bytes
  fits : body.length ≤ limit
  turns : Nat
  chunks : List Bytes
  truncated : Bool
  raised : Option Exc

/-- The loop that reads the body, from its `turn`th turn on, with the `chunks` so far. -/
def readBody (web : Web) (d : Deadline) (response : Response) (expected : Option Int) (limit : Nat)
    (turn : Nat) (chunks : List Bytes) (body : Bytes) (fits : body.length ≤ limit) :
    Reading limit :=
  match d.remaining (web.clock.reading turn) with
  | .error e => ⟨body, fits, turn + 1, chunks, false, some (.ofOSError e)⟩
  | .ok _ =>
      if hfull : body.length = limit then
        -- an exact known length needs no further byte
        if expected = some (body.length : Int) then ⟨body, fits, turn + 1, chunks, false, none⟩
        else ⟨body, fits, turn + 1, chunks, true, some (.value "response byte limit reached")⟩
      else
        match response.read1 turn (min 16384 (limit - body.length)) with
        | .error e => ⟨body, fits, turn + 1, chunks, false, some e⟩
        | .ok ⟨chunk, hchunk⟩ =>
            if hempty : chunk = [] then ⟨body, fits, turn + 1, chunks, false, none⟩
            else
              readBody web d response expected limit (turn + 1) (chunks ++ [chunk])
                (body ++ chunk) (by rw [List.length_append]; omega)
termination_by limit - body.length
decreasing_by
  have hpos : 0 < chunk.length := List.length_pos_iff.mpr hempty
  rw [List.length_append]
  omega

/-- A crawl whose fetch is over. `raised` is what no handler took; `delivered` is all
that the response gave. -/
structure Fetched (limit : Nat) where
  result : CrawlResult
  declared : Option PyStr
  body : Bytes
  fits : body.length ≤ limit
  turns : Nat
  delivered : Bytes
  raised : Option Exc

/-- The handler of the fetch. What an `IncompleteRead` brings counts as far as the limit
allows. -/
def Fetched.handle {limit : Nat} (f : Fetched limit) (e : Exc) : Fetched limit :=
  if e.cls ∈ fetchCaught then
    { f with
      result := { f.result with error := e.summary }
      body := f.body ++ (e.got.getD []).take (limit - f.body.length)
      fits := by
        have hfits := f.fits
        rw [List.length_append, List.length_take]
        omega
      delivered := f.delivered ++ e.got.getD [] }
  else { f with raised := some e }

/-- The statements behind the loop. -/
def concludeBody (response : Response) (expected : Option Int) (r : CrawlResult) (body : Bytes) :
    CrawlResult × Option Exc :=
  if expected ≠ none ∧ expected ≠ some (body.length : Int) then
    (r, some (.value "incomplete response: Content-Length mismatch"))
  else
    let r := { r with responseComplete := true }
    if 200 ≤ response.status ∧ response.status < 300 then
      ({ r with executionStatus := .succeeded }, none)
    else (r, some ⟨.valueError, "ValueError".toList,
      "HTTP status ".toList ++ intText response.status, none⟩)

/-- The statements that are tried, and their handler. Closing the response and the
connection leaves no trace in the result. -/
def fetch (web : Web) (d : Deadline) (request : Request) (limit : Nat) (r : CrawlResult) :
    Fetched limit :=
  let o := openResponse web d request r
  match o.outcome with
  | .error e => Fetched.handle ⟨o.result, o.declared, [], Nat.zero_le _, 0, [], none⟩ e
  | .ok (response, expected) =>
      let reading := readBody web d response expected limit 0 [] [] (Nat.zero_le _)
      let r := { o.result with truncated := reading.truncated }
      match reading.raised with
      | some e => Fetched.handle ⟨r, o.declared, reading.body, reading.fits, reading.turns,
          reading.chunks.flatten, none⟩ e
      | none =>
          match concludeBody response expected r reading.body with
          | (r, none) => ⟨r, o.declared, reading.body, reading.fits, reading.turns,
              reading.chunks.flatten, none⟩
          | (r, some e) => Fetched.handle ⟨r, o.declared, reading.body, reading.fits,
              reading.turns, reading.chunks.flatten, none⟩ e

/-! ## The loop -/

section

variable {web : Web} {d : Deadline} {response : Response} {expected : Option Int} {limit turn : Nat}
  {chunks : List Bytes} {body : Bytes} {fits : body.length ≤ limit}

/-- Every turn but the last takes a byte. -/
theorem turns_readBody : (readBody web d response expected limit turn chunks body fits).turns ≤
    turn + (limit - body.length) + 1 := by
  fun_induction readBody web d response expected limit turn chunks body fits with
  | case6 turn chunks body fits _ _ hfull chunk hchunk _ hempty ih =>
      have hpos : 0 < chunk.length := List.length_pos_iff.mpr hempty
      rw [List.length_append] at ih
      omega
  | _ => dsimp only; omega

/-- The body is what the chunks make. -/
theorem body_readBody (hbody : body = chunks.flatten) :
    (readBody web d response expected limit turn chunks body fits).body =
      (readBody web d response expected limit turn chunks body fits).chunks.flatten := by
  fun_induction readBody web d response expected limit turn chunks body fits with
  | case6 turn chunks body fits _ _ _ chunk _ _ _ ih =>
      apply ih
      rw [List.flatten_append, hbody, List.flatten_singleton]
  | _ => exact hbody

/-- A body that the limit cut is an error. -/
theorem truncated_readBody
    (h : (readBody web d response expected limit turn chunks body fits).raised = none) :
    (readBody web d response expected limit turn chunks body fits).truncated = false := by
  fun_induction readBody web d response expected limit turn chunks body fits with
  | case6 _ _ _ _ _ _ _ _ _ _ _ ih => exact ih h
  | case3 => cases h
  | _ => rfl

end

/-! ## What a success rests on -/

/-- What the fetch has found when it succeeds. -/
structure Established (web : Web) (request : Request) (r : CrawlResult) : Prop where
  complete : r.responseComplete = true
  whole : r.truncated = false
  noError : r.error = []
  status : ∃ response, web.getresponse request = .ok response ∧
    r.statusCode = some response.status ∧ 200 ≤ response.status ∧ response.status < 300 ∧
    (∀ coding, response.getheader "Content-Encoding".toList = some coding →
      strip (lower coding) = [] ∨ strip (lower coding) = "identity".toList) ∧
    ∀ length, response.getheader "Content-Length".toList = some length →
      parseInt length = some (r.bytesReceived : Int)

section

variable {web : Web} {d : Deadline} {request : Request} {limit : Nat} {r : CrawlResult}
  {response : Response} {expected : Option Int}

theorem of_isIdentity (h : response.isIdentity = true) {coding : PyStr}
    (hcoding : response.getheader "Content-Encoding".toList = some coding) :
    strip (lower coding) = [] ∨ strip (lower coding) = "identity".toList := by
  unfold Response.isIdentity at h
  rw [hcoding] at h
  simpa using h

theorem parseInt_of_expected (h : response.expected = .ok expected) {length : PyStr}
    (hlength : response.getheader "Content-Length".toList = some length) :
    parseInt length = expected ∧ expected ≠ none := by
  unfold Response.expected at h
  rw [hlength] at h
  obtain ⟨-, -, h⟩ := bind_ok_iff.mp h
  obtain ⟨n, hn, h⟩ := bind_ok_iff.mp h
  cases h
  exact ⟨orRaise_ok_iff.mp hn, Option.some_ne_none n⟩

/-- The head leaves the verdict alone. -/
theorem status_openResponse :
    (openResponse web d request r).result.executionStatus = r.executionStatus := by
  unfold openResponse
  split
  · rfl
  split
  · rfl
  dsimp only
  split
  · rfl
  split
  · rfl
  split <;> rfl

theorem openResponse_ok
    (h : (openResponse web d request r).outcome = .ok (response, expected)) :
    web.getresponse request = .ok response ∧ response.isIdentity = true ∧
      response.expected = .ok expected ∧
      (openResponse web d request r).result.statusCode = some response.status ∧
      (openResponse web d request r).result.error = r.error := by
  unfold openResponse at h ⊢
  -- every early end of the head is an error: what is left is the branch that reads on
  cases hremaining : d.remaining web.clock.opening with
  | error e =>
      rw [hremaining] at h
      cases h
  | ok t =>
      rw [hremaining] at h
      cases hresponse : web.getresponse request with
      | error e =>
          rw [hresponse] at h
          cases h
      | ok response' =>
          rw [hresponse] at h
          dsimp only at h ⊢
          split at h
          next => cases h
          next hredirect =>
            split at h
            next => cases h
            next hidentity =>
              rw [if_neg hredirect, if_neg hidentity]
              split at h
              next => cases h
              next charset hcharset =>
                obtain ⟨expected', hexpected, h⟩ := bind_ok_iff.mp h
                -- the length fits the limit, and nothing else of it is used
                obtain ⟨-, -, h⟩ := bind_ok_iff.mp h
                cases h
                rw [Bool.not_eq_true', Bool.not_eq_false] at hidentity
                exact ⟨rfl, hidentity, hexpected, rfl, rfl⟩

/-- What is known of a fetch, whatever comes from outside. -/
structure FetchSound (web : Web) (request : Request) {limit : Nat} (f : Fetched limit) : Prop where
  turns : f.turns ≤ limit + 1
  accepted : f.body <+: f.delivered
  success : f.result.executionStatus = .succeeded →
    Established web request { f.result with bytesReceived := f.body.length }

/-- The handler leaves a failed crawl failed, and takes no more than was delivered. -/
theorem FetchSound.handle {f : Fetched limit} (hturns : f.turns ≤ limit + 1)
    (hbody : f.body = f.delivered) (hfailed : f.result.executionStatus = .failed) (e : Exc) :
    FetchSound web request (f.handle e) := by
  unfold Fetched.handle
  split
  · refine ⟨hturns, ?_, fun h => ?_⟩
    · show f.body ++ (e.got.getD []).take _ <+: f.delivered ++ e.got.getD []
      rw [hbody]
      exact (List.prefix_append_right_inj _).mpr (List.take_prefix _ _)
    · exact absurd (hfailed.symm.trans h) (by decide)
  · exact ⟨hturns, hbody ▸ List.prefix_refl _, fun h => absurd (hfailed.symm.trans h) (by decide)⟩

/-- The statements behind the loop succeed on a whole body of a response of the 200s only. -/
theorem concludeBody_cases (response : Response) (expected : Option Int) (r : CrawlResult)
    (body : Bytes) :
    (∃ e, (concludeBody response expected r body).2 = some e ∧
      (concludeBody response expected r body).1.executionStatus = r.executionStatus) ∨
    ((expected = none ∨ expected = some (body.length : Int)) ∧ 200 ≤ response.status ∧
      response.status < 300 ∧ concludeBody response expected r body =
        ({ r with responseComplete := true, executionStatus := .succeeded }, none)) := by
  unfold concludeBody
  split
  · exact .inl ⟨_, rfl, rfl⟩
  next hlength =>
    dsimp only
    split
    next hstatus =>
      refine .inr ⟨?_, hstatus.1, hstatus.2, rfl⟩
      by_cases hnone : expected = none
      · exact .inl hnone
      · exact .inr (not_not.mp fun hne => hlength ⟨hnone, hne⟩)
    next => exact .inl ⟨_, rfl, rfl⟩

/-- From a result without a verdict the fetch succeeds only on what it has established. -/
theorem fetchSound (hfailed : r.executionStatus = .failed) (herror : r.error = []) :
    FetchSound web request (fetch web d request limit r) := by
  unfold fetch
  dsimp only
  have hstatus : (openResponse web d request r).result.executionStatus = .failed :=
    status_openResponse.trans hfailed
  -- the verdict is still the failure the crawl began with, up to `concludeBody`
  cases hopen : (openResponse web d request r).outcome with
  | error e => exact .handle (Nat.zero_le _) rfl hstatus e
  | ok opened =>
      obtain ⟨response, expected⟩ := opened
      obtain ⟨hresponse, hidentity, hexpected, hcode, hnoError⟩ := openResponse_ok hopen
      dsimp only
      generalize hreading : readBody web d response expected limit 0 [] [] (Nat.zero_le _) = reading
      have hturns : reading.turns ≤ limit + 1 := by
        have h : (readBody web d response expected limit 0 [] [] (Nat.zero_le _)).turns ≤
            0 + (limit - 0) + 1 := turns_readBody
        rw [hreading] at h
        omega
      have hbody : reading.body = reading.chunks.flatten := by
        rw [← hreading]
        exact body_readBody rfl
      cases hraised : reading.raised with
      | some e => exact .handle hturns hbody hstatus e
      | none =>
          -- a loop that ended by itself read until the delivery was empty
          have hwhole : reading.truncated = false := by
            rw [← hreading] at hraised ⊢
            exact truncated_readBody hraised
          dsimp only
          rcases concludeBody_cases response expected
            { (openResponse web d request r).result with truncated := reading.truncated }
            reading.body with ⟨e, hraise, hkept⟩ | ⟨hlength, hlow, hhigh, hdone⟩
          · split
            next heq =>
              rw [heq] at hraise
              cases hraise
            -- raised behind the loop: a short body, or a status outside the 200s
            next r' e' heq =>
              rw [heq] at hkept
              exact .handle hturns hbody (hkept.trans hstatus) e'
          · rw [hdone]
            -- the one branch that succeeds
            refine ⟨hturns, hbody ▸ List.prefix_refl _, fun _ => ?_⟩
            refine ⟨rfl, hwhole, hnoError.trans herror, response, hresponse, hcode, hlow, hhigh,
              fun _ => of_isIdentity hidentity, fun length hdeclared => ?_⟩
            obtain ⟨hparse, hsome⟩ := parseInt_of_expected hexpected hdeclared
            exact hparse.trans (hlength.resolve_left hsome)

end

end SrxProbe.Generators
