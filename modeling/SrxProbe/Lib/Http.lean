import SrxProbe.Lib.Url

/-!
# HTTP requests

The parts of a request that a handler looks at: header fields by name, the media type of
the body, the target split into path and query, and the values of the query.
-/

namespace SrxProbe.Lib.Http

/-! ## Headers -/

/-- The header fields of a message, in order. -/
abbrev Headers := List (PyStr × PyStr)

/-- `headers.get_all(name, [])`. -/
def getAll (headers : Headers) (name : String) : List PyStr :=
  (headers.filter fun field => lower field.1 = lower name.toList).map Prod.snd

/-- `headers.get(name)`. -/
def get? (headers : Headers) (name : String) : Option PyStr := (getAll headers name).head?

/-- `headers.get_content_type()`. The characters outside ASCII, which `lower` leaves
alone, are in no media type. -/
def getContentType (headers : Headers) : PyStr :=
  match get? headers "Content-Type" with
  | none => "text/plain".toList
  | some value =>
      let ctype := lower (strip (before ';' value))
      if ctype.count '/' = 1 then ctype else "text/plain".toList

/-! ## Targets -/

/-- What `urlparse` returns: the parts of a URL, with the parameters of its last segment
apart. -/
structure ParseResult extends SplitResult where
  params : PyStr
  deriving DecidableEq, Repr

section

-- `nfkcSafe` is what `_checknetloc` makes of a network location outside ASCII.
variable (nfkcSafe : PyStr → Bool)

/-- `uses_params`. -/
def usesParams : List PyStr :=
  ["".toList, "ftp".toList, "hdl".toList, "prospero".toList, "http".toList, "https".toList,
    "shttp".toList, "rtsp".toList, "rtsps".toList, "sip".toList, "sips".toList, "mms".toList,
    "sftp".toList, "tel".toList]

/-- `_splitparams`, of a path with a semicolon. -/
def splitParams (path : PyStr) : PyStr × PyStr :=
  let folder := path.rdropWhile (· ≠ '/')
  let last := path.rtakeWhile (· ≠ '/')
  if ';' ∈ last then (folder ++ before ';' last, after ';' last) else (path, [])

/-- `urlparse(url)`, `none` where it raises `ValueError`. -/
def urlparse (url : PyStr) : Option ParseResult :=
  (urlsplitWith nfkcSafe url).map fun u =>
    if u.scheme ∈ usesParams ∧ ';' ∈ u.path then
      { u with path := (splitParams u.path).1, params := (splitParams u.path).2 }
    else { u with params := [] }

/-- An origin, which is nothing but a scheme and a network location, is split into them. -/
theorem urlparse_origin {scheme netloc : PyStr} (hscheme : scheme ∈ httpSchemes)
    (hnetloc : IsNetloc netloc) :
    urlparse nfkcSafe (scheme ++ "://".toList ++ netloc) =
      some ⟨⟨scheme, netloc, [], [], []⟩, []⟩ := by
  have hurl : scheme ++ "://".toList ++ netloc = scheme ++ ':' :: '/' :: '/' :: netloc := by simp
  have hprintable : ∀ c ∈ '/' :: '/' :: netloc, 32 < c.toNat := by
    intro c hc
    simp only [List.mem_cons] at hc
    rcases hc with rfl | rfl | hc
    · decide
    · decide
    · exact hnetloc.printable c hc
  have hall : ∀ c ∈ netloc, (!isDelimiter c) = true := by
    intro c hc
    rw [hnetloc.undelimited c hc]
    rfl
  have hsplit : splitNetloc ('/' :: '/' :: netloc) = (netloc, []) := by
    unfold splitNetloc
    simp only
    rw [List.takeWhile_eq_self_iff.mpr hall, List.dropWhile_eq_nil_iff.mpr hall]
  have hparts : urlsplit (scheme ++ "://".toList ++ netloc) =
      some ⟨scheme, netloc, [], [], []⟩ := by
    rw [hurl, urlsplit_scheme hscheme hprintable, hsplit]
    simp only
    rw [hnetloc.brackets, List.all_eq_true.mpr hnetloc.ascii]
    rfl
  unfold urlparse
  rw [urlsplitWith_of_urlsplit nfkcSafe hparts, Option.map_some]
  simp

end

/-! ## Queries -/

/-- A name or value of a query. -/
def queryText (s : PyStr) : PyStr := unquote (s.map fun c => if c = '+' then ' ' else c)

/-- `parse_qsl(query)`: fields without a value are left out. -/
def parseQsl (query : PyStr) : List (PyStr × PyStr) :=
  (query.splitOn '&').filterMap fun field =>
    if '=' ∈ field ∧ after '=' field ≠ [] then
      some (queryText (before '=' field), queryText (after '=' field))
    else none

/-- `parse_qs(query).get(name, [""])[0]`. -/
def queryValue (query : PyStr) (name : String) : PyStr :=
  ((parseQsl query).lookup name.toList).getD []

end SrxProbe.Lib.Http
