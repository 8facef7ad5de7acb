import SrxProbe.Generators.Fetch
import SrxProbe.Generators.PageParser

/-!
# Crawling a page

`crawl_page` as a whole: the limits and the URL are validated, the page is fetched, its
text is decoded and extracted, and the deadline is looked at for a last time. A success is
reported only on what the fetch has established.
-/

namespace SrxProbe.Generators

open SrxProbe.Lib SrxProbe.Lib.Regex

/-! ## The libraries -/

/-- What `codecs.getincrementaldecoder` raises. -/
def lookupRaises : List ExcClass := [.lookupError, .typeError, .valueError]

/-- What the construction of a decoder and its calls raise. -/
def codecRaises : List ExcClass :=
  [.lookupError, .typeError, .valueError, .osError, .assertionError]

/-- What `HTMLParser` raises. -/
def parserRaises : List ExcClass := [.valueError, .typeError]

/-- An incremental decoder: what a call gives after the `earlier` ones. -/
structure Decoder where
  decode : (earlier : List Bytes) → Bytes → (final : Bool) → Except (Raises codecRaises) PyStr

/-- `codecs.getincrementaldecoder(label)`, and the decoder class called with
`errors="replace"`. -/
structure CodecLib where
  getincrementaldecoder : PyStr →
    Except (Raises lookupRaises) (Except (Raises codecRaises) Decoder)

/-- The handlers that `HTMLParser` calls for a text after the `earlier` ones, up to an
exception of its own. -/
structure HtmlLib where
  feed : (earlier : List PyStr) → PyStr → List Callback × Option (Raises parserRaises)
  close : (earlier : List PyStr) → List Callback × Option (Raises parserRaises)

structure World extends Web where
  codecs : CodecLib
  html : HtmlLib
  urls : UrlLib

/-! ## The charset -/

/-- A byte as the character of a byte pattern. -/
def byteChar (b : UInt8) : Char := Char.ofNat b.toNat

/-- `\s` of a byte pattern. -/
def isByteSpace (c : Char) : Bool := c = ' ' || (9 ≤ c.toNat && c.toNat ≤ 13)

/-- `\w` of a byte pattern. -/
def isByteWord (c : Char) : Bool := isAlnum c || c = '_'

/-- `\b` of a byte pattern. -/
def byteBoundary : Regex :=
  look fun before rest => (before.head?.any isByteWord) != (rest.head?.any isByteWord)

/-- A lower case word in either case. -/
def anyCase (word : String) : Regex := cat (word.toList.map fun c => cls fun d => lower [d] = [c])

/-- `<meta\b[^>]*\bcharset\s*=\s*[\"']?([A-Za-z0-9_-]+)`, in either case. -/
def metaCharset : Regex :=
  cat [anyCase "<meta", byteBoundary, star (cls (· ≠ '>')), byteBoundary, anyCase "charset",
    star (cls isByteSpace), chr '=', star (cls isByteSpace),
    upTo (cls fun c => c = '"' || c = '\'') 1,
    group 1 (plus (cls fun c => isByteWord c || c = '-'))]

/-- The label in the first meta tag that has one. -/
def sniff (body : Bytes) : Option PyStr :=
  (metaCharset.search ((body.take 1024).map byteChar)).bind (·.group 1)

def bomUtf8 : Bytes := [0xEF, 0xBB, 0xBF]
def bomUtf16LE : Bytes := [0xFF, 0xFE]
def bomUtf16BE : Bytes := [0xFE, 0xFF]

/-- The label of the decoder: that of a byte order mark, of a meta tag, of the header. -/
def selectCharset {limit : Nat} (f : Fetched limit) : PyStr :=
  if bomUtf8.isPrefixOf f.body then "utf-8-sig".toList
  else if bomUtf16LE.isPrefixOf f.body || bomUtf16BE.isPrefixOf f.body then "utf-16".toList
  else if (f.declared.getD []).isEmpty && f.result.contentType = "text/html".toList then
    (sniff f.body).getD f.result.charset
  else f.result.charset

/-! ## Decoding and extraction -/

/-- The decoder for a label, constructed. -/
def CodecLib.construct (codecs : CodecLib) (label : PyStr) : Except Exc Decoder :=
  match codecs.getincrementaldecoder label with
  | .error e => .error e
  | .ok (.error e) => .error e
  | .ok (.ok decoder) => .ok decoder

/-- What sends the label back to UTF-8. -/
def lookupCaught : List ExcClass := [.lookupError, .typeError]

/-- The label that is used in the end, with its decoder. -/
def CodecLib.select (codecs : CodecLib) (label : PyStr) : Except Exc (PyStr × Decoder) :=
  match codecs.construct label with
  | .ok decoder => .ok (label, decoder)
  | .error e =>
      if e.cls ∈ lookupCaught then do
        let decoder ← codecs.construct "utf-8".toList
        .ok ("utf-8".toList, decoder)
      else .error e

/-- The pieces of a body, and whether each is the final one. -/
def slices (body : Bytes) : List (Bytes × Bool) :=
  (List.range ((body.length + 16383) / 16384)).map fun i =>
    ((body.drop (16384 * i)).take 16384, body.length ≤ 16384 * i + 16384)

/-- An extraction between two pieces: those decoded, the texts fed, and the parser. -/
structure Extraction where
  earlier : List Bytes
  texts : List PyStr
  parser : PageParser

variable (w : World) (d : Deadline)

/-- The calls of an `HTMLParser` method on the parser. -/
def callHandlers (s : Extraction) (text : PyStr)
    (called : List Callback × Option (Raises parserRaises)) : Except Exc Extraction :=
  match called with
  | (_, some e) => .error e
  | (calls, none) =>
      .ok { s with
        texts := s.texts ++ [text]
        parser := calls.foldl (PageParser.handle pageLimits w.urls) s.parser }

/-- One turn of the loop over the pieces. -/
def decodeStep (plain : Bool) (decoder : Decoder) (s : Extraction) (piece : Bytes × Bool) :
    Except Exc Extraction :=
  match d.remaining (w.clock.decoding s.earlier.length) with
  | .error e => .error (.ofOSError e)
  | .ok _ =>
      match decoder.decode s.earlier piece.1 piece.2 with
      | .error e => .error e
      | .ok text =>
          let s := { s with earlier := s.earlier ++ [piece.1] }
          if plain then .ok { s with parser := s.parser.handleData pageLimits text }
          else callHandlers w s text (w.html.feed s.texts text)

/-- The parser after the whole body. -/
def decodePage (plain : Bool) (decoder : Decoder) (url : PyStr) (body : Bytes) :
    Except Exc PageParser := do
  let s ← (slices body).foldlM (decodeStep w d plain decoder) ⟨[], [], .new url⟩
  let s ← callHandlers w s [] (w.html.close s.texts)
  .ok s.parser

/-- The types whose text is extracted. -/
def textTypes : List PyStr :=
  ["text/html".toList, "application/xhtml+xml".toList, "text/plain".toList]

/-- The statements that are tried on a body. -/
def extract {limit : Nat} (url : PyStr) (f : Fetched limit) (r : CrawlResult) :
    CrawlResult × Option Exc :=
  match w.codecs.select (selectCharset f) with
  | .error e => (r, some e)
  | .ok (charset, decoder) =>
      let r := { r with charset := charset }
      match decodePage w d (r.contentType = "text/plain".toList) decoder url f.body with
      | .error e => (r, some e)
      | .ok parser =>
          ({ r with
            title := strip parser.title
            text := strip parser.text
            links := parser.links
            outputTruncated := parser.outputTruncated }, none)

/-- What the handler of the extraction names. -/
def extractCaught : List ExcClass := [.valueError, .osError, .lookupError, .typeError]

/-- The extraction with its handler. -/
def handleExtract {limit : Nat} (url : PyStr) (f : Fetched limit) (r : CrawlResult) :
    Except Exc CrawlResult :=
  if f.body.isEmpty || !textTypes.contains r.contentType then .ok r
  else
    match extract w d url f r with
    | (r, none) => .ok r
    | (r, some e) =>
        if e.cls ∈ extractCaught then
          .ok { r with executionStatus := .failed, error := e.text.take 512 }
        else .error e

/-- The last look at the deadline. -/
def checkDeadline (r : CrawlResult) : CrawlResult :=
  match d.remaining w.clock.closing with
  | .ok _ => r
  | .error e => { r with executionStatus := .failed, error := e.message }

/-- What follows the fetch. -/
def concludeCrawl {limit : Nat} (url : PyStr) (f : Fetched limit) : Except Exc CrawlResult :=
  match f.raised with
  | some e => .error e
  | none => do
      let r ← handleExtract w d url f { f.result with bytesReceived := f.body.length }
      .ok { checkDeadline w d r with elapsed := w.clock.finished - w.clock.started }

/-- A crawl whose arguments are valid: the turns of its loop, the body it took and the
body that was delivered, and the result it returns or the exception it raises. -/
structure CrawlRun where
  turns : Nat
  body : Bytes
  delivered : Bytes
  outcome : Except Exc CrawlResult

/-- What is requested for a URL. -/
def requestOf (parsed : SplitResult) : Request :=
  ⟨parsed.scheme, parsed.hostname, parsed.port.join, requestPath parsed⟩

/-- The fetch of a crawl. -/
def crawlFetch (url : PyStr) (parsed : SplitResult) (maxBytes : Int) : Fetched maxBytes.toNat :=
  fetch w.toWeb d (requestOf parsed) maxBytes.toNat (.initial url)

/-- `_Deadline(timeout)`. -/
def crawlDeadline (timeout : Int) : Deadline := ⟨w.clock.begun + timeout⟩

/-- `crawl_page`. -/
def crawlPage (url : PyStr) (maxBytes timeout : Int) : Except PyErr CrawlRun := do
  validateLimits (.int maxBytes) (.int timeout)
  let parsed ← validateUrl url
  let d := crawlDeadline w timeout
  let f := crawlFetch w d url parsed maxBytes
  .ok ⟨f.turns, f.body, f.delivered, concludeCrawl w d url f⟩

/-! ## What a reported success rests on -/

/-- What comes after the fetch keeps its findings, and may only withdraw its success. -/
structure Keeps (r r' : CrawlResult) : Prop where
  complete : r'.responseComplete = r.responseComplete
  truncated : r'.truncated = r.truncated
  status : r'.statusCode = r.statusCode
  received : r'.bytesReceived = r.bytesReceived
  success : r'.executionStatus = .succeeded → r.executionStatus = .succeeded ∧ r'.error = r.error

section

variable {w : World} {d : Deadline} {limit : Nat} {url : PyStr} {f : Fetched limit}
  {r r' r'' : CrawlResult}

theorem Keeps.trans (h : Keeps r r') (h' : Keeps r' r'') : Keeps r r'' where
  complete := h'.complete.trans h.complete
  truncated := h'.truncated.trans h.truncated
  status := h'.status.trans h.status
  received := h'.received.trans h.received
  success := fun hsuccess => by
    obtain ⟨hbefore, herror⟩ := h'.success hsuccess
    obtain ⟨hfirst, herror'⟩ := h.success hbefore
    exact ⟨hfirst, herror.trans herror'⟩

theorem Keeps.established {web : Web} {request : Request} (h : Keeps r r')
    (hr : r.executionStatus = .succeeded → Established web request r)
    (hsuccess : r'.executionStatus = .succeeded) : Established web request r' := by
  obtain ⟨hbefore, herror⟩ := h.success hsuccess
  obtain ⟨hcomplete, hwhole, hnoError, response, hresponse, hcode, hrest⟩ := hr hbefore
  refine ⟨h.complete.trans hcomplete, h.truncated.trans hwhole, herror.trans hnoError, response,
    hresponse, h.status.trans hcode, ?_⟩
  rw [h.received]
  exact hrest

theorem keeps_extract : Keeps r (extract w d url f r).1 := by
  unfold extract
  split
  · exact ⟨rfl, rfl, rfl, rfl, fun h => ⟨h, rfl⟩⟩
  dsimp only
  split <;> exact ⟨rfl, rfl, rfl, rfl, fun h => ⟨h, rfl⟩⟩

theorem keeps_handleExtract (h : handleExtract w d url f r = .ok r') : Keeps r r' := by
  unfold handleExtract at h
  split at h
  · cases h
    exact ⟨rfl, rfl, rfl, rfl, fun h => ⟨h, rfl⟩⟩
  have hkeeps : Keeps r (extract w d url f r).1 := keeps_extract
  split at h
  next heq =>
    cases h
    rw [heq] at hkeeps
    exact hkeeps
  next r₁ e heq =>
    rw [heq] at hkeeps
    split at h
    · cases h
      exact ⟨hkeeps.complete, hkeeps.truncated, hkeeps.status, hkeeps.received, nofun⟩
    · cases h

theorem keeps_checkDeadline : Keeps r (checkDeadline w d r) := by
  unfold checkDeadline
  split
  · exact ⟨rfl, rfl, rfl, rfl, fun h => ⟨h, rfl⟩⟩
  · exact ⟨rfl, rfl, rfl, rfl, nofun⟩

theorem keeps_concludeCrawl (h : concludeCrawl w d url f = .ok r') :
    Keeps { f.result with bytesReceived := f.body.length } r' := by
  unfold concludeCrawl at h
  split at h
  · cases h
  · obtain ⟨r, hextract, h⟩ := bind_ok_iff.mp h
    cases h
    have hlast : Keeps r (checkDeadline w d r) := keeps_checkDeadline
    have hall := (keeps_handleExtract hextract).trans hlast
    exact ⟨hall.complete, hall.truncated, hall.status, hall.received, hall.success⟩

end

/-- The arguments of a crawl are valid, and this is its fetch. -/
theorem crawlPage_ok {w : World} {url : PyStr} {maxBytes timeout : Int} {run : CrawlRun}
    (h : crawlPage w url maxBytes timeout = .ok run) :
    1 ≤ maxBytes ∧ ∃ parsed, validateUrl url = .ok parsed ∧
      run = ⟨(crawlFetch w (crawlDeadline w timeout) url parsed maxBytes).turns,
        (crawlFetch w (crawlDeadline w timeout) url parsed maxBytes).body,
        (crawlFetch w (crawlDeadline w timeout) url parsed maxBytes).delivered,
        concludeCrawl w (crawlDeadline w timeout) url
          (crawlFetch w (crawlDeadline w timeout) url parsed maxBytes)⟩ := by
  obtain ⟨_, hlimits, h⟩ := bind_ok_iff.mp h
  obtain ⟨parsed, hparsed, h⟩ := bind_ok_iff.mp h
  obtain ⟨_, hbytes, _⟩ := bind_ok_iff.mp hlimits
  cases h
  refine ⟨?_, parsed, hparsed, rfl⟩
  unfold validateLimit at hbytes
  dsimp only at hbytes
  split at hbytes
  next hrange => exact hrange.1
  next => cases hbytes

theorem crawlPage_of_valid (w : World) {url : PyStr} {maxBytes timeout : Int}
    {parsed : SplitResult} (hlimits : validateLimits (.int maxBytes) (.int timeout) = .ok ())
    (hparsed : validateUrl url = .ok parsed) :
    crawlPage w url maxBytes timeout =
      .ok ⟨(crawlFetch w (crawlDeadline w timeout) url parsed maxBytes).turns,
        (crawlFetch w (crawlDeadline w timeout) url parsed maxBytes).body,
        (crawlFetch w (crawlDeadline w timeout) url parsed maxBytes).delivered,
        concludeCrawl w (crawlDeadline w timeout) url
          (crawlFetch w (crawlDeadline w timeout) url parsed maxBytes)⟩ := by
  unfold crawlPage
  rw [hlimits, hparsed]
  rfl

/-! ## A page of two bytes -/

def twoBytes (header : PyStr) : Response where
  status := 200
  getheader name := if name = "Content-Type".toList then some header else none
  read1 i n := .ok (if i = 0 then ⟨List.take n [0x36, 0x31], List.length_take_le _ _⟩
    else ⟨[], Nat.zero_le n⟩)

/-- The `hex` codec asserts `errors == "strict"` where it decodes. -/
def hexDecoder : Decoder where
  decode _ _ _ :=
    .error ⟨⟨.assertionError, "AssertionError".toList, [], none⟩, by decide⟩

/-- The codec of ASCII. -/
def asciiDecoder : Decoder where
  decode _ piece _ := .ok (piece.map fun b => Char.ofNat b.toNat)

/-- A server of the page, whose header is read as this type and this charset. -/
def pageWorld (header contentType : PyStr) (charset : Option PyStr) : World where
  clock := ⟨0, 0, 0, fun _ => 0, fun _ => 0, 0, 0⟩
  header := ⟨fun _ => contentType, fun _ => .ok charset⟩
  getresponse _ := .ok (twoBytes header)
  codecs := ⟨fun label =>
    if label = "hex".toList then .ok (.ok hexDecoder)
    else if label = "us-ascii".toList then .ok (.ok asciiDecoder)
    else .error ⟨⟨.lookupError, "LookupError".toList, "unknown encoding".toList, none⟩, by decide⟩⟩
  html := ⟨fun _ _ => ([], none), fun _ => ([], none)⟩
  urls := ⟨fun _ _ => none, fun _ => none⟩

section

variable (header contentType : PyStr) (charset : Option PyStr)

theorem pageWorld_inTime :
    (0 : Time) < (crawlDeadline (pageWorld header contentType charset) 10).stop := by
  show (0 : Rat) < 0 + 10
  rw [zero_add]
  decide

/-- The loop takes the two bytes in its first turn, and finds no more in its second. -/
theorem readBody_pageWorld : readBody (pageWorld header contentType charset).toWeb
    (crawlDeadline (pageWorld header contentType charset) 10) (twoBytes header) none 10 0 [] []
    (Nat.zero_le 10) = ⟨[0x36, 0x31], by decide, 2, [[0x36, 0x31]], false, none⟩ := by
  have htime : ∀ turn, (crawlDeadline (pageWorld header contentType charset) 10).remaining
      ((pageWorld header contentType charset).clock.reading turn) =
        .ok ((crawlDeadline (pageWorld header contentType charset) 10).stop - 0) :=
    fun _ => remaining_ok (pageWorld_inTime header contentType charset)
  have hlast : readBody (pageWorld header contentType charset).toWeb
      (crawlDeadline (pageWorld header contentType charset) 10) (twoBytes header) none 10 1
      [[0x36, 0x31]] [0x36, 0x31] (by decide) =
        ⟨[0x36, 0x31], by decide, 2, [[0x36, 0x31]], false, none⟩ := by
    unfold readBody
    rw [htime 1]
    rfl
  rw [readBody, htime 0]
  exact hlast

/-- The page is fetched as a whole. -/
theorem fetch_pageWorld (request : Request) (url : PyStr) :
    ∃ r, fetch (pageWorld header contentType charset).toWeb
      (crawlDeadline (pageWorld header contentType charset) 10) request 10 (.initial url) =
        ⟨r, charset.filter fun c => c.length ≤ 64, [0x36, 0x31], by decide, 2, [0x36, 0x31], none⟩ ∧
      r.executionStatus = .succeeded ∧ r.contentType = contentType.take 128 ∧
      r.charset = if ((charset.filter fun c => c.length ≤ 64).getD []).isEmpty then "utf-8".toList
        else (charset.filter fun c => c.length ≤ 64).getD [] := by
  have hopen : ∃ r, openResponse (pageWorld header contentType charset).toWeb
      (crawlDeadline (pageWorld header contentType charset) 10) request (.initial url) =
        ⟨r, charset.filter fun c => c.length ≤ 64, .ok (twoBytes header, none)⟩ ∧
      r.contentType = contentType.take 128 ∧
      r.charset = if ((charset.filter fun c => c.length ≤ 64).getD []).isEmpty then "utf-8".toList
        else (charset.filter fun c => c.length ≤ 64).getD [] := by
    unfold openResponse
    rw [show (pageWorld header contentType charset).clock.opening = 0 from rfl,
      remaining_ok (pageWorld_inTime header contentType charset)]
    exact ⟨_, rfl, rfl, rfl⟩
  obtain ⟨r, hopen, htype, hcharset⟩ := hopen
  unfold fetch
  rw [hopen]
  dsimp only
  rw [readBody_pageWorld]
  exact ⟨_, rfl, rfl, htype, hcharset⟩

end

theorem parsed_page : validateUrl "http://h/".toList =
    .ok ⟨"http".toList, "h".toList, "/".toList, [], []⟩ := rfl

/-- A page that is no text. -/
def pngWorld : World := pageWorld "image/png".toList "image/png".toList none

/-- **A crawl reports what it has established.** Its loop takes one turn more than the limit
has bytes, at most. It accepts no byte beyond the limit, and none that was not delivered. A
success is that of a whole, plain and complete response of the 200s; a body that was cut
or is not complete fails the crawl. -/
theorem crawl_reports_established {w : World} {url : PyStr} {maxBytes timeout : Int}
    {run : CrawlRun} (h : crawlPage w url maxBytes timeout = .ok run) :
    (run.turns : Int) ≤ maxBytes + 1 ∧ run.body <+: run.delivered ∧
    (run.body.length : Int) ≤ maxBytes ∧
    ∀ r, run.outcome = .ok r → r.bytesReceived = run.body.length ∧
      (r.executionStatus = .succeeded → ∃ parsed, validateUrl url = .ok parsed ∧
        Established w.toWeb (requestOf parsed) r) ∧
      (r.truncated = true ∨ r.responseComplete = false → r.executionStatus = .failed) := by
  obtain ⟨hmax, parsed, hparsed, rfl⟩ := crawlPage_ok h
  have hsound : FetchSound w.toWeb (requestOf parsed)
      (crawlFetch w (crawlDeadline w timeout) url parsed maxBytes) := fetchSound rfl rfl
  generalize crawlFetch w (crawlDeadline w timeout) url parsed maxBytes = f at hsound
  have hfits := f.fits
  have hturns := hsound.turns
  dsimp only
  refine ⟨by omega, hsound.accepted, by omega, fun r hr => ?_⟩
  have hkeeps := keeps_concludeCrawl hr
  refine ⟨hkeeps.received, fun hsuccess => ⟨parsed, hparsed, ?_⟩, fun hbroken => ?_⟩
  · exact hkeeps.established hsound.success hsuccess
  · cases hstatus : r.executionStatus with
    | failed => rfl
    | succeeded =>
        have hok := hkeeps.established hsound.success hstatus
        rcases hbroken with hcut | hopen
        · exact absurd (hcut.symm.trans hok.whole) (by decide)
        · exact absurd (hopen.symm.trans hok.complete) (by decide)

/-- The crawl of that page reports a success, within its bounds. -/
theorem crawl_reports_established_png :
    ∃ run r, crawlPage pngWorld "http://h/".toList 10 10 = .ok run ∧ run.outcome = .ok r ∧
      (run.turns : Int) ≤ 11 ∧ run.body <+: run.delivered ∧
      ∃ parsed, validateUrl "http://h/".toList = .ok parsed ∧
        Established pngWorld.toWeb (requestOf parsed) r := by
  have hrun : crawlPage pngWorld "http://h/".toList 10 10 = _ :=
    crawlPage_of_valid _ rfl parsed_page
  obtain ⟨hturns, hbody, -, hresult⟩ := crawl_reports_established hrun
  obtain ⟨r, hfetch, hstatus, htype, -⟩ := fetch_pageWorld "image/png".toList "image/png".toList
    none (requestOf ⟨"http".toList, "h".toList, "/".toList, [], []⟩) "http://h/".toList
  have hfetch' : crawlFetch pngWorld (crawlDeadline pngWorld 10) "http://h/".toList
      ⟨"http".toList, "h".toList, "/".toList, [], []⟩ 10 = _ := hfetch
  have houtcome : concludeCrawl pngWorld (crawlDeadline pngWorld 10) "http://h/".toList
      (crawlFetch pngWorld (crawlDeadline pngWorld 10) "http://h/".toList
        ⟨"http".toList, "h".toList, "/".toList, [], []⟩ 10) =
      .ok { r with bytesReceived := 2, elapsed := 0 - 0 } := by
    have htime : pngWorld.clock.closing < (crawlDeadline pngWorld 10).stop :=
      pageWorld_inTime _ _ _
    have hcheck : ∀ r, checkDeadline pngWorld (crawlDeadline pngWorld 10) r = r := by
      intro r
      unfold checkDeadline
      rw [remaining_ok htime]
    have hbinary : (!textTypes.contains r.contentType) = true := by
      rw [htype]
      decide
    rw [hfetch']
    unfold concludeCrawl handleExtract
    dsimp only
    rw [hbinary, Bool.or_true, if_pos rfl, ok_bind, hcheck]
    rfl
  exact ⟨_, _, hrun, houtcome, hturns, hbody, (hresult _ houtcome).2.1 hstatus⟩

end SrxProbe.Generators
