import SrxProbe.Generators.CrawlPage

/-!
# Crawls that return

Every exception of the fetch and of the extraction meets a handler, but for two: one that
the reading of the header's charset may raise, and the assertion of a codec. A crawl with
valid arguments returns a result where neither comes up.
-/

namespace SrxProbe.Generators

open SrxProbe.Lib

/-! ## When a crawl returns -/

/-- Reading the charset of the header fails in a way that the fetch does not handle. -/
def HeaderEscapes (web : Web) (d : Deadline) (request : Request) : Prop :=
  web.clock.opening < d.stop ∧ ∃ response, web.getresponse request = .ok response ∧
    response.isRedirect = false ∧ response.isIdentity = true ∧
    ∃ e, web.header.contentCharset response.contentTypeHeader = .error e ∧ e.cls ∉ fetchCaught

/-- The construction of the decoder asserts, or that of its substitute. -/
def ConstructAsserts (codecs : CodecLib) (label : PyStr) : Prop :=
  ∃ e, codecs.construct label = .error e ∧ (e.cls = .assertionError ∨ e.cls ∈ lookupCaught ∧
    ∃ e', codecs.construct "utf-8".toList = .error e' ∧ e'.cls = .assertionError)

/-- The decoder asserts on a piece of the body, when the pieces before it have passed and
there is time left. -/
def DecodeAsserts (w : World) (d : Deadline) (plain : Bool) (decoder : Decoder) (url : PyStr)
    (body : Bytes) : Prop :=
  ∃ before piece after s e, slices body = before ++ piece :: after ∧
    before.foldlM (decodeStep w d plain decoder) ⟨[], [], .new url⟩ = .ok s ∧
    w.clock.decoding s.earlier.length < d.stop ∧
    decoder.decode s.earlier piece.1 piece.2 = .error e ∧ e.val.cls = .assertionError

/-- The body is decoded, and the codec asserts. -/
def CodecAsserts (w : World) (d : Deadline) (url : PyStr) {limit : Nat} (f : Fetched limit) :
    Prop :=
  f.body ≠ [] ∧ f.result.contentType ∈ textTypes ∧
    (ConstructAsserts w.codecs (selectCharset f) ∨
      ∃ charset decoder, w.codecs.select (selectCharset f) = .ok (charset, decoder) ∧
        DecodeAsserts w d (f.result.contentType = "text/plain".toList) decoder url f.body)

section fetched

variable {web : Web} {d : Deadline} {request : Request} {limit : Nat} {r : CrawlResult}
  {response : Response} {expected : Option Int}

theorem cls_ofOSError (e : OSError) : (Exc.ofOSError e).cls ∈ fetchCaught := List.mem_cons_self

theorem cls_value (message : String) : (Exc.value message).cls ∈ fetchCaught :=
  List.mem_cons_of_mem _ List.mem_cons_self

/-- What the loop raises is handled. -/
theorem cls_readBody {turn : Nat} {chunks : List Bytes} {body : Bytes}
    {fits : body.length ≤ limit} {e : Exc}
    (h : (readBody web d response expected limit turn chunks body fits).raised = some e) :
    e.cls ∈ fetchCaught := by
  fun_induction readBody web d response expected limit turn chunks body fits with
  | case6 _ _ _ _ _ _ _ _ _ _ _ ih => exact ih h
  | case1 => cases h; exact cls_ofOSError _
  | case3 => cases h; exact cls_value _
  | case4 _ _ _ _ _ _ _ e => cases h; exact e.property
  | case2 => cases h
  | case5 => cases h

theorem cls_concludeBody {body : Bytes} {r' : CrawlResult} {e : Exc}
    (h : concludeBody response expected r body = (r', some e)) : e.cls ∈ fetchCaught := by
  unfold concludeBody at h
  split at h
  · cases h
    exact cls_value _
  dsimp only at h
  split at h
  · cases h
  · cases h
    exact cls_value ""

theorem cls_raiseIf {c : Prop} [Decidable c] {e e' : Exc} (he : e.cls ∈ fetchCaught)
    (h : raiseIf c e = .error e') : e'.cls ∈ fetchCaught := by
  unfold raiseIf at h
  split at h
  · cases h
    exact he
  · cases h

/-- What the length and the framing raise is handled. -/
theorem cls_framing {e : Exc} (h : (do
    let expected ← response.expected
    response.checkFraming expected
    .ok (response, expected)) = (.error e : Except Exc (Response × Option Int))) :
    e.cls ∈ fetchCaught := by
  rcases bind_error_iff.mp h with hlength | ⟨expected, -, h⟩
  · unfold Response.expected at hlength
    split at hlength
    · cases hlength
    rcases bind_error_iff.mp hlength with hdigits | ⟨_, -, hlength⟩
    · exact cls_raiseIf (cls_value _) hdigits
    rcases bind_error_iff.mp hlength with hparse | ⟨n, -, hlength⟩
    · unfold orRaise at hparse
      split at hparse
      · cases hparse
      · cases hparse
        exact cls_value _
    · cases hlength
  · rcases bind_error_iff.mp h with hcoding | ⟨_, -, h⟩
    · exact cls_raiseIf (cls_value _) hcoding
    · cases h

theorem raised_handle {f : Fetched limit} (hnone : f.raised = none) (e : Exc) :
    (f.handle e).raised = none ↔ e.cls ∈ fetchCaught := by
  unfold Fetched.handle
  split
  next h => exact ⟨fun _ => h, fun _ => hnone⟩
  next h => exact ⟨fun h' => (by cases h'), fun h' => absurd h' h⟩

/-- The head of the response raises what is not handled only where it reads the charset. -/
theorem openResponse_escapes : (∃ e, (openResponse web d request r).outcome = .error e ∧
    e.cls ∉ fetchCaught) ↔ HeaderEscapes web d request := by
  unfold openResponse HeaderEscapes
  -- the head in the order of the source; of its errors only the one of the charset may escape
  by_cases htime : web.clock.opening < d.stop
  swap
  · rw [remaining_error htime]
    refine ⟨?_, fun h => absurd h.1 htime⟩
    rintro ⟨e, he, hescapes⟩
    cases he
    exact absurd (cls_ofOSError _) hescapes
  rw [remaining_ok htime]
  cases hresponse : web.getresponse request with
  | error e₀ =>
      refine ⟨?_, ?_⟩
      · rintro ⟨e, he, hescapes⟩
        cases he
        exact absurd e₀.property hescapes
      · rintro ⟨-, response, hok, -⟩
        cases hok
  | ok response =>
      dsimp only
      by_cases hredirect : response.isRedirect = true
      · rw [if_pos hredirect]
        refine ⟨?_, ?_⟩
        · rintro ⟨e, he, hescapes⟩
          cases he
          exact absurd (cls_value _) hescapes
        · rintro ⟨-, response', hok, hnot, -⟩
          cases hok
          exact absurd (hredirect.symm.trans hnot) (by decide)
      rw [if_neg hredirect]
      by_cases hidentity : response.isIdentity = true
      swap
      · rw [if_pos (by rw [Bool.not_eq_true'] ; exact Bool.not_eq_true _ ▸ hidentity)]
        refine ⟨?_, ?_⟩
        · rintro ⟨e, he, hescapes⟩
          cases he
          exact absurd (cls_value _) hescapes
        · rintro ⟨-, response', hok, -, hid, -⟩
          cases hok
          exact absurd hid hidentity
      rw [hidentity, Bool.not_true, if_neg Bool.false_ne_true]
      have hredirect' : response.isRedirect = false := Bool.not_eq_true _ ▸ hredirect
      -- `get_content_charset` is the one call here that no `except` clause foresees
      cases hcharset : web.header.contentCharset response.contentTypeHeader with
      | error e₀ =>
          refine ⟨?_, ?_⟩
          · rintro ⟨e, he, hescapes⟩
            cases he
            exact ⟨htime, response, rfl, hredirect', hidentity, e₀, hcharset, hescapes⟩
          · rintro ⟨-, response', hok, -, -, e, he, hescapes⟩
            cases hok
            rw [hcharset] at he
            cases he
            exact ⟨e₀, rfl, hescapes⟩
      | ok charset =>
          refine ⟨?_, ?_⟩
          · rintro ⟨e, he, hescapes⟩
            exact absurd (cls_framing he) hescapes
          · rintro ⟨-, response', hok, -, -, e, he, -⟩
            cases hok
            rw [hcharset] at he
            cases he

theorem raised_fetch : (fetch web d request limit r).raised = none ↔
    ¬ HeaderEscapes web d request := by
  rw [← openResponse_escapes (r := r)]
  unfold fetch
  dsimp only
  cases hopen : (openResponse web d request r).outcome with
  | error e =>
      dsimp only
      rw [raised_handle rfl]
      refine ⟨?_, fun h => not_not.mp fun hescapes => h ⟨e, rfl, hescapes⟩⟩
      rintro hcaught ⟨e', he', hescapes⟩
      cases he'
      exact hescapes hcaught
  | ok opened =>
      obtain ⟨response, expected⟩ := opened
      have hno : ¬ ∃ e, (Except.ok (response, expected) : Except Exc _) = .error e ∧
          e.cls ∉ fetchCaught := fun ⟨_, he, _⟩ => by cases he
      refine ⟨fun _ => hno, fun _ => ?_⟩
      dsimp only
      split
      -- the loop and what follows it raise handled errors only
      next e hraised => exact (raised_handle rfl e).mpr (cls_readBody hraised)
      next =>
        split
        next => rfl
        next r' e heq =>
          exact (raised_handle rfl e).mpr (cls_concludeBody heq)

end fetched

section extraction

variable {w : World} {d : Deadline} {url : PyStr} {plain : Bool} {decoder : Decoder}
  {s : Extraction} {piece : Bytes × Bool} {e : Exc} {limit : Nat} {f : Fetched limit}
  {r : CrawlResult}

/-- An exception of the extraction that is not handled is an assertion. -/
theorem uncaught_iff (h : e.cls ∈ codecRaises) :
    e.cls ∉ extractCaught ↔ e.cls = .assertionError := by
  cases hcls : e.cls with
  | httpException =>
      rw [hcls] at h
      exact absurd h (by decide)
  | _ => decide

theorem codecRaises_of_parserRaises {c : ExcClass} (h : c ∈ parserRaises) :
    c ∈ codecRaises ∧ c ≠ .assertionError := by
  cases c with
  | valueError => decide
  | typeError => decide
  | _ => exact absurd h (by decide)

theorem cls_callHandlers {text : PyStr} {called : List Callback × Option (Raises parserRaises)}
    (h : callHandlers w s text called = .error e) :
    e.cls ∈ codecRaises ∧ e.cls ≠ .assertionError := by
  obtain ⟨calls, raised⟩ := called
  cases raised with
  | none => cases h
  | some e' =>
      cases h
      exact codecRaises_of_parserRaises e'.property

/-- A turn of the loop raises what a codec may raise, and it asserts where the decoder does. -/
theorem decodeStep_error (h : decodeStep w d plain decoder s piece = .error e) :
    e.cls ∈ codecRaises ∧ (e.cls = .assertionError →
      w.clock.decoding s.earlier.length < d.stop ∧
        ∃ e', decoder.decode s.earlier piece.1 piece.2 = .error e' ∧
          e'.val.cls = .assertionError) := by
  unfold decodeStep at h
  by_cases htime : w.clock.decoding s.earlier.length < d.stop
  swap
  · rw [remaining_error htime] at h
    cases h
    exact ⟨by decide, nofun⟩
  rw [remaining_ok htime] at h
  dsimp only at h
  split at h
  next e' hdecode =>
    cases h
    exact ⟨e'.property, fun hassert => ⟨htime, e', hdecode, hassert⟩⟩
  next text =>
    split at h
    · cases h
    · obtain ⟨hmem, hne⟩ := cls_callHandlers h
      exact ⟨hmem, fun hassert => absurd hassert hne⟩

theorem decodeStep_asserts {e' : Raises codecRaises}
    (htime : w.clock.decoding s.earlier.length < d.stop)
    (hdecode : decoder.decode s.earlier piece.1 piece.2 = .error e') :
    decodeStep w d plain decoder s piece = .error e' := by
  unfold decodeStep
  rw [remaining_ok htime, hdecode]

/-- Decoding a page raises what a codec may raise, and it asserts where the decoder does. -/
theorem decodePage_error {body : Bytes} (h : decodePage w d plain decoder url body = .error e) :
    e.cls ∈ codecRaises ∧ (e.cls = .assertionError → DecodeAsserts w d plain decoder url body) := by
  rcases bind_error_iff.mp h with hloop | ⟨s, -, h⟩
  · obtain ⟨before, piece, after, s, hsplit, hbefore, hstep⟩ := foldlM_error_iff.mp hloop
    obtain ⟨hmem, hassert⟩ := decodeStep_error hstep
    refine ⟨hmem, fun hcls => ?_⟩
    obtain ⟨htime, e', hdecode, hcls'⟩ := hassert hcls
    exact ⟨before, piece, after, s, e', hsplit, hbefore, htime, hdecode, hcls'⟩
  · rcases bind_error_iff.mp h with hclose | ⟨s', -, h⟩
    · obtain ⟨hmem, hne⟩ := cls_callHandlers hclose
      exact ⟨hmem, fun hassert => absurd hassert hne⟩
    · cases h

theorem decodePage_asserts {body : Bytes} (h : DecodeAsserts w d plain decoder url body) :
    ∃ e, decodePage w d plain decoder url body = .error e ∧ e.cls = .assertionError := by
  obtain ⟨before, piece, after, s, e', hsplit, hbefore, htime, hdecode, hcls⟩ := h
  refine ⟨e', bind_error_iff.mpr (.inl ?_), hcls⟩
  exact foldlM_error_iff.mpr ⟨before, piece, after, s, hsplit, hbefore,
    decodeStep_asserts htime hdecode⟩

theorem cls_construct {label : PyStr} (h : w.codecs.construct label = .error e) :
    e.cls ∈ codecRaises := by
  unfold CodecLib.construct at h
  split at h
  next e' _ =>
    cases h
    have hmem := e'.property
    cases hcls : e'.val.cls <;> rw [hcls] at hmem <;> first | decide | exact absurd hmem (by decide)
  next e' _ =>
    cases h
    exact e'.property
  next => cases h

/-- Choosing the decoder raises what a codec may raise, and it asserts where a construction
does. -/
theorem select_error {label : PyStr} (h : w.codecs.select label = .error e) :
    e.cls ∈ codecRaises ∧ (e.cls = .assertionError → ConstructAsserts w.codecs label) := by
  unfold CodecLib.select at h
  split at h
  · cases h
  next e₀ hconstruct =>
    split at h
    next hlookup =>
      rcases bind_error_iff.mp h with hutf8 | ⟨_, -, h⟩
      · exact ⟨cls_construct hutf8, fun hcls => ⟨e₀, hconstruct, .inr ⟨hlookup, e, hutf8, hcls⟩⟩⟩
      · cases h
    next =>
      cases h
      exact ⟨cls_construct hconstruct, fun hcls => ⟨e, hconstruct, .inl hcls⟩⟩

theorem select_asserts {label : PyStr} (h : ConstructAsserts w.codecs label) :
    ∃ e, w.codecs.select label = .error e ∧ e.cls = .assertionError := by
  obtain ⟨e, hconstruct, hassert | ⟨hlookup, e', hutf8, hassert⟩⟩ := h
  · refine ⟨e, ?_, hassert⟩
    unfold CodecLib.select
    rw [hconstruct]
    exact if_neg (by rw [hassert]; decide)
  · refine ⟨e', ?_, hassert⟩
    unfold CodecLib.select
    rw [hconstruct]
    dsimp only
    rw [if_pos hlookup, hutf8]
    rfl

/-- The statements that are tried raise what a codec may raise, and assert where a codec
does. -/
theorem extract_error {r' : CrawlResult} (h : extract w d url f r = (r', some e)) :
    e.cls ∈ codecRaises ∧ (e.cls = .assertionError → ConstructAsserts w.codecs (selectCharset f) ∨
      ∃ charset decoder, w.codecs.select (selectCharset f) = .ok (charset, decoder) ∧
        DecodeAsserts w d (r.contentType = "text/plain".toList) decoder url f.body) := by
  unfold extract at h
  split at h
  next e' hselect =>
    cases h
    obtain ⟨hmem, hassert⟩ := select_error hselect
    exact ⟨hmem, fun hcls => .inl (hassert hcls)⟩
  next charset decoder hselect =>
    dsimp only at h
    split at h
    next e' hdecode =>
      cases h
      obtain ⟨hmem, hassert⟩ := decodePage_error hdecode
      exact ⟨hmem, fun hcls => .inr ⟨charset, decoder, hselect, hassert hcls⟩⟩
    next => cases h

theorem extract_asserts (h : ConstructAsserts w.codecs (selectCharset f) ∨
    ∃ charset decoder, w.codecs.select (selectCharset f) = .ok (charset, decoder) ∧
      DecodeAsserts w d (r.contentType = "text/plain".toList) decoder url f.body) :
    ∃ r' e, extract w d url f r = (r', some e) ∧ e.cls = .assertionError := by
  rcases h with hconstruct | ⟨charset, decoder, hselect, hdecode⟩
  · obtain ⟨e, hselect, hcls⟩ := select_asserts hconstruct
    refine ⟨r, e, ?_, hcls⟩
    unfold extract
    rw [hselect]
  · obtain ⟨e, hpage, hcls⟩ := decodePage_asserts hdecode
    refine ⟨{ r with charset := charset }, e, ?_, hcls⟩
    unfold extract
    rw [hselect]
    dsimp only
    rw [hpage]

/-- The extraction returns a result unless the codec asserts. -/
theorem handleExtract_ok_iff (hr : r.contentType = f.result.contentType) :
    (∃ r', handleExtract w d url f r = .ok r') ↔ ¬ CodecAsserts w d url f := by
  unfold handleExtract CodecAsserts
  rw [← hr]
  -- no body or no text type: the extraction is not entered
  by_cases htext : (f.body.isEmpty || !textTypes.contains r.contentType) = true
  · rw [if_pos htext]
    refine ⟨fun _ h => ?_, fun _ => ⟨r, rfl⟩⟩
    rw [Bool.or_eq_true, List.isEmpty_iff, Bool.not_eq_true', ← Bool.not_eq_true,
      List.contains_iff_mem] at htext
    exact htext.elim h.1 (fun hno => hno h.2.1)
  · rw [if_neg htext]
    rw [Bool.or_eq_true, List.isEmpty_iff, Bool.not_eq_true', ← Bool.not_eq_true,
      List.contains_iff_mem, not_or, not_not] at htext
    cases hextract : extract w d url f r with
    | mk r₁ raised =>
        cases raised with
        | none =>
            refine ⟨fun _ h => ?_, fun _ => ⟨r₁, rfl⟩⟩
            obtain ⟨r', e, hraise, -⟩ := extract_asserts (r := r) h.2.2
            rw [hextract] at hraise
            cases hraise
        | some e =>
            obtain ⟨hmem, hassert⟩ := extract_error hextract
            have hiff := uncaught_iff hmem
            dsimp only
            -- what is raised inside is handled unless it is the assertion of a codec
            by_cases hcaught : e.cls ∈ extractCaught
            · rw [if_pos hcaught]
              refine ⟨fun _ h => ?_, fun _ => ⟨_, rfl⟩⟩
              obtain ⟨r', e', hraise, hcls⟩ := extract_asserts (r := r) h.2.2
              rw [hextract] at hraise
              cases hraise
              exact hiff.mpr hcls hcaught
            · rw [if_neg hcaught]
              refine ⟨fun ⟨r', hr'⟩ => (by cases hr'), fun h => ?_⟩
              exact absurd ⟨htext.1, htext.2, hassert (hiff.mp hcaught)⟩ h

/-- After its fetch a crawl returns unless it holds an exception or the codec asserts. -/
theorem concludeCrawl_ok_iff :
    (∃ r', concludeCrawl w d url f = .ok r') ↔ f.raised = none ∧ ¬ CodecAsserts w d url f := by
  have hextract : (∃ r', handleExtract w d url f { f.result with bytesReceived := f.body.length } =
      .ok r') ↔ ¬ CodecAsserts w d url f := handleExtract_ok_iff rfl
  unfold concludeCrawl
  cases hraised : f.raised with
  | some e =>
      refine ⟨fun ⟨r', hr'⟩ => (by cases hr'), fun h => (by cases h.1)⟩
  | none =>
      rw [← hextract]
      dsimp only
      constructor
      · rintro ⟨r', hr'⟩
        obtain ⟨r, hr, -⟩ := bind_ok_iff.mp hr'
        exact ⟨rfl, r, hr⟩
      · rintro ⟨-, r, hr⟩
        exact ⟨_, bind_ok_iff.mpr ⟨r, hr, rfl⟩⟩

end extraction

/-- **A crawl with valid arguments returns a result** if and only if the charset of the
header can be read, or fails as the fetch expects it to, and the codec that the page is
decoded with does not assert. -/
theorem crawl_returns_iff {w : World} {url : PyStr} {maxBytes timeout : Int} {run : CrawlRun}
    (h : crawlPage w url maxBytes timeout = .ok run) {parsed : SplitResult}
    (hparsed : validateUrl url = .ok parsed) :
    (∃ r, run.outcome = .ok r) ↔
      ¬ HeaderEscapes w.toWeb (crawlDeadline w timeout) (requestOf parsed) ∧
      ¬ CodecAsserts w (crawlDeadline w timeout) url
        (crawlFetch w (crawlDeadline w timeout) url parsed maxBytes) := by
  obtain ⟨-, parsed', hparsed', rfl⟩ := crawlPage_ok h
  rw [hparsed] at hparsed'
  cases hparsed'
  dsimp only
  rw [concludeCrawl_ok_iff, crawlFetch, raised_fetch]

/-- A decoder that never raises does not assert. -/
theorem not_codecAsserts {w : World} {d : Deadline} {url : PyStr} {decoder : Decoder}
    {limit : Nat} {f : Fetched limit} (hcodec : w.codecs.construct (selectCharset f) = .ok decoder)
    (hdecoder : ∀ earlier piece final, ∃ s, decoder.decode earlier piece final = .ok s) :
    ¬ CodecAsserts w d url f := by
  rintro ⟨-, -, ⟨e, he, -⟩ | ⟨charset, decoder', hselect, before, piece, after, s, e, -, -, -, he, -⟩⟩
  · cases hcodec.symm.trans he
  · have hselect' : w.codecs.select (selectCharset f) = .ok (selectCharset f, decoder) := by
      unfold CodecLib.select
      rw [hcodec]
    cases hselect.symm.trans hselect'
    obtain ⟨text, htext⟩ := hdecoder s.earlier piece.1 piece.2
    cases htext.symm.trans he

/-- The page in ASCII, whose header says so, is decoded, and the crawl returns. -/
theorem crawl_returns_ascii : ∃ run, crawlPage (pageWorld "text/html; charset=us-ascii".toList
    "text/html".toList (some "us-ascii".toList)) "http://h/".toList 10 10 = .ok run ∧
      ∃ r, run.outcome = .ok r := by
  have hrun : crawlPage (pageWorld "text/html; charset=us-ascii".toList
      "text/html".toList (some "us-ascii".toList)) "http://h/".toList 10 10 = _ :=
    crawlPage_of_valid _ rfl parsed_page
  refine ⟨_, hrun, (crawl_returns_iff hrun parsed_page).mpr ⟨?_, ?_⟩⟩
  · rintro ⟨-, response, -, -, -, e, he, -⟩
    cases he
  · obtain ⟨r, hfetch, -, -, hcharset⟩ := fetch_pageWorld "text/html; charset=us-ascii".toList
      "text/html".toList (some "us-ascii".toList)
      (requestOf ⟨"http".toList, "h".toList, "/".toList, [], []⟩) "http://h/".toList
    have hascii : ∀ earlier piece final, ∃ s, asciiDecoder.decode earlier piece final = .ok s :=
      fun _ _ _ => ⟨_, rfl⟩
    rw [crawlFetch, show (10 : Int).toNat = 10 from rfl, hfetch]
    refine not_codecAsserts ?_ hascii
    show CodecLib.construct _ r.charset = _
    rw [hcharset]
    rfl

/-- A page in the `hex` codec makes the crawl raise. -/
theorem crawl_raises_on_hex : ∃ run, crawlPage (pageWorld "text/html; charset=hex".toList
    "text/html".toList (some "hex".toList)) "http://h/".toList 10 10 = .ok run ∧
      ¬ ∃ r, run.outcome = .ok r := by
  refine ⟨_, crawlPage_of_valid _ rfl parsed_page, ?_⟩
  dsimp only
  rw [concludeCrawl_ok_iff, crawlFetch]
  obtain ⟨r, hfetch, -, htype, hcharset⟩ := fetch_pageWorld "text/html; charset=hex".toList
    "text/html".toList (some "hex".toList)
    (requestOf ⟨"http".toList, "h".toList, "/".toList, [], []⟩)
    "http://h/".toList
  rw [show (10 : Int).toNat = 10 from rfl, hfetch]
  rintro ⟨-, hno⟩
  apply hno
  have hslices : slices [0x36, 0x31] = [([0x36, 0x31], true)] := by decide
  refine ⟨List.cons_ne_nil _ _, ?_, .inr ⟨"hex".toList, hexDecoder, ?_, ?_⟩⟩
  · show r.contentType ∈ textTypes
    rw [htype]
    decide
  · show CodecLib.select _ r.charset = _
    rw [hcharset]
    rfl
  · exact ⟨[], ([0x36, 0x31], true), [], _, _, hslices, rfl, pageWorld_inTime _ _ _, rfl, rfl⟩

end SrxProbe.Generators
