import SrxProbe.Lib.Dict
import SrxProbe.Lib.Regex
import SrxProbe.Lib.Squeeze
import SrxProbe.Lib.Url

/-!
# Extraction from a page

The handlers of the page parser, for the calls that an HTML parser makes. The machine takes
its limits as an argument, so that the one without limits is the same machine: as long
as no truncation is flagged, both find the same title, text and links.
-/

namespace SrxProbe.Generators

open SrxProbe.Lib SrxProbe.Lib.Regex

/-! ## The machine -/

/-- What the extraction asks of a split URL; a missing host name is empty. -/
structure LinkParts where
  scheme : PyStr
  hostname : PyStr
  username : Option PyStr
  password : Option PyStr
  deriving DecidableEq, Repr

/-- `urljoin` and `urlsplit`, `none` where they raise `ValueError`. Nothing is assumed
of them. -/
structure UrlLib where
  urljoin : PyStr → PyStr → Option PyStr
  urlsplit : PyStr → Option LinkParts

/-- The limits of an extraction; `none` is no limit. -/
structure Limits where
  title : Option Nat
  text : Option Nat
  href : Option Nat
  links : Option Nat
  link : Option Nat

/-- The limits of `_PageParser`. -/
def pageLimits : Limits := ⟨some 512, some 2048, some 2048, some 20, some 1024⟩

def noLimits : Limits := ⟨none, none, none, none, none⟩

def below (limit : Option Nat) (n : Nat) : Bool := limit.all fun m => n < m

def within (limit : Option Nat) (n : Nat) : Bool := limit.all fun m => n ≤ m

/-- `s[:limit]`. -/
def clip (limit : Option Nat) (s : PyStr) : PyStr :=
  match limit with
  | none => s
  | some m => s.take m

structure PageParser where
  url : PyStr
  title : PyStr
  text : PyStr
  links : List PyStr
  inTitle : Bool
  hidden : List PyStr
  outputTruncated : Bool
  deriving DecidableEq, Repr

/-- A call of a handler. -/
inductive Callback
  | starttag (tag : PyStr) (attrs : List (PyStr × Option PyStr))
  | endtag (tag : PyStr)
  | data (text : PyStr)
  deriving DecidableEq, Repr

/-- `s.endswith(" ")`. -/
def endsInSpace (s : PyStr) : Bool := s.getLast? = some ' '

/-- `re.sub(r"\s+", " ", data)`. -/
def collapse (data : PyStr) : PyStr := spaces.sub (fun _ => [' ']) data

/-- The tags whose content is not shown. -/
def hiddenTags : List PyStr := ["script".toList, "style".toList, "template".toList]

namespace PageParser

/-- `_PageParser(url)`. -/
def new (url : PyStr) : PageParser := ⟨url, [], [], [], false, [], false⟩

variable (limits : Limits) (lib : UrlLib)

/-- `_text_boundary`. -/
def textBoundary (p : PageParser) : PageParser :=
  if !p.text.isEmpty && !endsInSpace p.text && below limits.text p.text.length then
    { p with text := p.text ++ [' '] }
  else p

/-- The scheme, the host, the credentials and the characters of a link are as they
should be. -/
def isCrawlable (parts : LinkParts) (link : PyStr) : Bool :=
  httpSchemes.contains parts.scheme && !parts.hostname.isEmpty && parts.username.isNone &&
    parts.password.isNone && !link.any fun c => c.toNat < 32 || c.toNat = 127

/-- The link that `href` stands for, `none` where the handler returns without one. -/
def linkOf (p : PageParser) (href : PyStr) : Option PyStr := do
  let link ← lib.urljoin p.url href
  let parts ← lib.urlsplit link
  if isCrawlable parts link then some link else none

/-- The part of `handle_starttag` about the `href` of an anchor. -/
def addHref (p : PageParser) : Option PyStr → PageParser
  | none => p
  | some href =>
      if href.isEmpty then p
      else if !within limits.href href.length then { p with outputTruncated := true }
      else
        match p.linkOf lib href with
        | none => p
        | some link =>
            if p.links.contains link then p
            else if below limits.links p.links.length && within limits.link link.length then
              { p with links := p.links ++ [link] }
            else { p with outputTruncated := true }

/-- `handle_starttag`. -/
def handleStarttag (p : PageParser) (tag : PyStr) (attrs : List (PyStr × Option PyStr)) :
    PageParser :=
  let p := if hiddenTags.contains tag then { p with hidden := p.hidden ++ [tag] } else p
  if !p.hidden.isEmpty then p
  else
    let p := if p.inTitle then p else p.textBoundary limits
    let p := if tag = "title".toList then { p with inTitle := true } else p
    if tag = "a".toList then
      p.addHref limits lib ((Dict.ofPairs attrs).get? "href".toList).join
    else p

/-- `handle_endtag`. -/
def handleEndtag (p : PageParser) (tag : PyStr) : PageParser :=
  if !p.hidden.isEmpty then
    if p.hidden.getLast? = some tag then { p with hidden := p.hidden.dropLast } else p
  else if tag = "title".toList then { p with inTitle := false }
  else if p.inTitle then p
  else p.textBoundary limits

/-- What `handle_data` puts behind the `old` text. -/
def combine (old text : PyStr) : PyStr :=
  old ++ if endsInSpace old then text.dropWhile (· = ' ') else text

/-- `handle_data`. -/
def handleData (p : PageParser) (data : PyStr) : PageParser :=
  if !p.hidden.isEmpty then p
  else
    let text := collapse data
    if text.isEmpty then p
    else if p.inTitle then
      let combined := combine p.title text
      { p with
        title := clip limits.title combined
        outputTruncated := p.outputTruncated || !within limits.title combined.length }
    else
      let combined := combine p.text text
      { p with
        text := clip limits.text combined
        outputTruncated := p.outputTruncated || !within limits.text combined.length }

def handle (p : PageParser) : Callback → PageParser
  | .starttag tag attrs => p.handleStarttag limits lib tag attrs
  | .endtag tag => p.handleEndtag limits tag
  | .data text => p.handleData limits text

/-- A fresh parser after the calls. -/
def run (url : PyStr) (calls : List Callback) : PageParser :=
  calls.foldl (handle limits lib) (new url)

end PageParser

/-! ## Spaces -/

/-- No two spaces follow each other. -/
def SingleSpaced (s : PyStr) : Prop := s.IsChain fun c d => ¬ (c = ' ' ∧ d = ' ')

theorem isSpace_blank : isSpace ' ' = true := by decide

/-- `re.sub(r"\s+", " ", data)` squeezes the white space: one character that stays, or the
whole run up to the next one that does. -/
theorem subFrom_spaces (n : Nat) : ∀ before rest : List Char, rest.length ≤ n →
    spaces.subFrom (fun _ => [' ']) before rest = squeeze isSpace ' ' rest := by
  induction n with
  | zero =>
      intro before rest hlen
      rw [List.length_eq_zero_iff.mp (Nat.le_zero.mp hlen)]
      rfl
  | succ n ih =>
      intro before rest hlen
      cases rest with
      | nil => rfl
      | cons c rest =>
          rw [List.length_cons] at hlen
          cases hc : isSpace c with
          | false =>
              have hrefuses : Refuses spaces (c :: rest) [] :=
                Refuses.plus (Refuses.cls fun d hd => by cases hd; exact hc)
              rw [subFrom_skip hrefuses, ih (c :: before) rest (by omega),
                squeeze_cons isSpace_blank hc]
          | true =>
              have hrun : ∀ d ∈ (c :: rest).takeWhile isSpace, isSpace d = true :=
                fun d hd => List.mem_takeWhile_imp hd
              have hne : (c :: rest).takeWhile isSpace ≠ [] := by
                rw [List.takeWhile_cons_of_pos hc]
                exact List.cons_ne_nil _ _
              have hnext : ∀ d, ((c :: rest).dropWhile isSpace).head? = some d →
                  isSpace d = false := by
                intro d hd
                have hnot := List.head?_dropWhile_not isSpace (c :: rest)
                rw [hd] at hnot
                exact hnot
              have hshort : ((c :: rest).dropWhile isSpace).length ≤ n := by
                rw [List.dropWhile_cons_of_pos hc]
                exact (List.length_dropWhile_le _ _).trans (by omega)
              have heats : Eats spaces ((c :: rest).takeWhile isSpace)
                  ((c :: rest).dropWhile isSpace) [] [] := Eats.plusCls hrun hne hnext
              rw [← List.takeWhile_append_dropWhile (p := isSpace) (l := c :: rest),
                subFrom_found heats hne, ih _ _ hshort,
                squeeze_run isSpace_blank hrun hne hnext]
              rfl

theorem collapse_eq (data : PyStr) : collapse data = squeeze isSpace ' ' data :=
  subFrom_spaces data.length [] data (Nat.le_refl _)

theorem combine_eq (old text : PyStr) : PageParser.combine old text = glue ' ' old text := by
  simp [PageParser.combine, endsInSpace, glue]

theorem singleSpaced_collapse (data : PyStr) : SingleSpaced (collapse data) := by
  rw [collapse_eq]
  exact isChain_squeeze data

theorem singleSpaced_combine {old text : PyStr} (hold : SingleSpaced old)
    (htext : SingleSpaced text) : SingleSpaced (PageParser.combine old text) := by
  rw [combine_eq]
  exact isChain_glue hold htext

theorem SingleSpaced.take {s : PyStr} (h : SingleSpaced s) (n : Nat) : SingleSpaced (s.take n) :=
  h.prefix (List.take_prefix n s)

theorem SingleSpaced.concat {s : PyStr} (h : SingleSpaced s) (hend : endsInSpace s = false) :
    SingleSpaced (s ++ [' ']) := by
  refine List.isChain_append.mpr ⟨h, List.isChain_singleton _, ?_⟩
  intro c hc d _ hboth
  rw [Option.mem_def, hboth.1] at hc
  exact absurd hc (of_decide_eq_false hend)

/-! ## The handlers -/

/-- `dict(attrs).get("href")` -/
def hrefOf (attrs : List (PyStr × Option PyStr)) : Option PyStr :=
  ((Dict.ofPairs attrs).get? "href".toList).join

namespace PageParser

variable {limits : Limits} {lib : UrlLib} {p : PageParser} {tag : PyStr}

theorem textBoundary_eq (limits : Limits) (p : PageParser) :
    p.textBoundary limits = { p with text := (p.textBoundary limits).text } := by
  unfold textBoundary
  split <;> rfl

theorem text_textBoundary (limits : Limits) (p : PageParser) :
    (p.textBoundary limits).text =
      if !p.text.isEmpty && !endsInSpace p.text && below limits.text p.text.length then
        p.text ++ [' '] else p.text := by
  unfold textBoundary
  exact apply_ite PageParser.text _ _ _

theorem addHref_eq (limits : Limits) (lib : UrlLib) (p : PageParser) (href : Option PyStr) :
    p.addHref limits lib href = { p with
      links := (p.addHref limits lib href).links
      outputTruncated := (p.addHref limits lib href).outputTruncated } := by
  cases href with
  | none => rfl
  | some href =>
      rw [addHref]
      split
      · rfl
      split
      · rfl
      cases p.linkOf lib href with
      | none => rfl
      | some link =>
          dsimp only
          split
          · rfl
          split <;> rfl

/-- The links and the flag after an anchor depend on no other field than the page. -/
theorem addHref_congr {p q : PageParser} (hurl : p.url = q.url) (hlinks : p.links = q.links)
    (href : Option PyStr) :
    (p.addHref limits lib href).links = (q.addHref limits lib href).links ∧
      (p.outputTruncated = q.outputTruncated →
        (p.addHref limits lib href).outputTruncated =
          (q.addHref limits lib href).outputTruncated) := by
  cases href with
  | none => exact ⟨hlinks, id⟩
  | some href =>
      have hlink : p.linkOf lib href = q.linkOf lib href := by rw [linkOf, linkOf, hurl]
      simp only [addHref, hlink, hlinks]
      split
      · exact ⟨hlinks, id⟩
      split
      · exact ⟨rfl, fun _ => rfl⟩
      split
      · exact ⟨hlinks, id⟩
      split
      · exact ⟨hlinks, id⟩
      split
      · exact ⟨rfl, id⟩
      · exact ⟨rfl, fun _ => rfl⟩

/-- A start tag that hides its content. -/
theorem handleStarttag_hidden {attrs : List (PyStr × Option PyStr)}
    (h : hiddenTags.contains tag = true) :
    p.handleStarttag limits lib tag attrs = { p with hidden := p.hidden ++ [tag] } := by
  unfold handleStarttag
  rw [if_pos h]
  simp

/-- Any other start tag where content is hidden. -/
theorem handleStarttag_inside {attrs : List (PyStr × Option PyStr)}
    (h : hiddenTags.contains tag = false) (hidden : p.hidden ≠ []) :
    p.handleStarttag limits lib tag attrs = p := by
  unfold handleStarttag
  rw [if_neg (ne_true_of_eq_false h)]
  simp [hidden]

/-- A start tag that is shown. -/
theorem handleStarttag_visible {attrs : List (PyStr × Option PyStr)}
    (h : hiddenTags.contains tag = false) (hidden : p.hidden = []) :
    p.handleStarttag limits lib tag attrs = { p with
      inTitle := p.inTitle || decide (tag = "title".toList)
      text := (if p.inTitle then p else p.textBoundary limits).text
      links := (if tag = "a".toList then p.addHref limits lib (hrefOf attrs) else p).links
      outputTruncated :=
        (if tag = "a".toList then p.addHref limits lib (hrefOf attrs)
          else p).outputTruncated } := by
  have hspaced : (if p.inTitle then p else p.textBoundary limits) =
      { p with text := (if p.inTitle then p else p.textBoundary limits).text } := by
    split
    · rfl
    · exact textBoundary_eq limits p
  unfold handleStarttag
  rw [if_neg (ne_true_of_eq_false h)]
  have hempty : ¬ (!p.hidden.isEmpty) = true := by simp [hidden]
  dsimp only
  rw [if_neg hempty, hspaced]
  generalize (if p.inTitle then p else p.textBoundary limits).text = text
  have htitle : (if tag = "title".toList then { p with text, inTitle := true }
      else { p with text }) =
      { p with text, inTitle := p.inTitle || decide (tag = "title".toList) } := by
    by_cases htag : tag = "title".toList
    · rw [if_pos htag, decide_eq_true htag, Bool.or_true]
    · rw [if_neg htag, decide_eq_false htag, Bool.or_false]
  rw [htitle]
  by_cases ha : tag = "a".toList
  · obtain ⟨hlinks, hflag⟩ := @addHref_congr limits lib
      { p with text, inTitle := p.inTitle || decide (tag = "title".toList) } p rfl rfl
      (hrefOf attrs)
    rw [if_pos ha, if_pos ha, ← hlinks, ← hflag rfl]
    exact addHref_eq limits lib _ (hrefOf attrs)
  · rw [if_neg ha, if_neg ha]

end PageParser

/-! ## What every run keeps -/

/-- An absolute link of the web, without credentials and without control characters. -/
structure CrawlableLink (parts : LinkParts) (link : PyStr) : Prop where
  scheme : parts.scheme = "http".toList ∨ parts.scheme = "https".toList
  hostname : parts.hostname ≠ []
  username : parts.username = none
  password : parts.password = none
  printable : ∀ c ∈ link, 32 ≤ c.toNat ∧ c.toNat ≠ 127

/-- The bounds of an extraction. -/
structure Bounded (lib : UrlLib) (p : PageParser) : Prop where
  title : p.title.length ≤ 512
  text : p.text.length ≤ 2048
  spaced : SingleSpaced p.text
  count : p.links.length ≤ 20
  distinct : p.links.Nodup
  links : ∀ link ∈ p.links, link.length ≤ 1024 ∧
    ∃ parts, lib.urlsplit link = some parts ∧ CrawlableLink parts link

namespace PageParser

theorem crawlableLink_of_isCrawlable {parts : LinkParts} {link : PyStr}
    (h : isCrawlable parts link = true) : CrawlableLink parts link := by
  simp only [isCrawlable, httpSchemes, Bool.and_eq_true, Bool.not_eq_true',
    List.contains_iff_mem, List.mem_cons, List.not_mem_nil, or_false, List.isEmpty_eq_false_iff,
    Option.isNone_iff_eq_none, List.any_eq_false, Bool.or_eq_true, decide_eq_true_eq] at h
  obtain ⟨⟨⟨⟨hscheme, hhost⟩, huser⟩, hpass⟩, hchars⟩ := h
  refine ⟨hscheme, hhost, huser, hpass, fun c hc => ?_⟩
  have hne := hchars c hc
  omega

theorem linkOf_eq_some {lib : UrlLib} {p : PageParser} {href link : PyStr}
    (h : p.linkOf lib href = some link) :
    ∃ parts, lib.urlsplit link = some parts ∧ CrawlableLink parts link := by
  unfold linkOf at h
  cases hjoin : lib.urljoin p.url href with
  | none =>
      rw [hjoin] at h
      cases h
  | some joined =>
      rw [hjoin] at h
      cases hsplit : lib.urlsplit joined with
      | none => simp [hsplit] at h
      | some parts =>
          simp only [Option.bind_eq_bind, Option.bind_some, hsplit] at h
          split at h
          next hcrawl =>
            cases h
            exact ⟨parts, hsplit, crawlableLink_of_isCrawlable hcrawl⟩
          next => cases h

variable {lib : UrlLib}

theorem bounded_new (url : PyStr) : Bounded lib (new url) where
  title := Nat.zero_le _
  text := Nat.zero_le _
  spaced := List.isChain_nil
  count := Nat.zero_le _
  distinct := List.nodup_nil
  links := nofun

theorem bounded_textBoundary {p : PageParser} (h : Bounded lib p) :
    Bounded lib (p.textBoundary pageLimits) := by
  unfold textBoundary
  split
  next hgo =>
    rw [Bool.and_eq_true, Bool.and_eq_true, Bool.not_eq_true', Bool.not_eq_true'] at hgo
    obtain ⟨⟨-, hend⟩, hroom⟩ := hgo
    have hroom' : p.text.length < 2048 := of_decide_eq_true hroom
    refine { h with text := ?_, spaced := h.spaced.concat hend }
    show (p.text ++ [' ']).length ≤ 2048
    rw [List.length_append]
    exact hroom'
  next => exact h

theorem bounded_addHref {p : PageParser} (h : Bounded lib p) (href : Option PyStr) :
    Bounded lib (p.addHref pageLimits lib href) := by
  cases href with
  | none => exact h
  | some href =>
      rw [addHref]
      split
      · exact h
      split
      · exact { h with }
      cases hlink : p.linkOf lib href with
      | none => exact h
      | some link =>
          dsimp only
          split
          · exact h
          next hnew =>
            split
            next hgo =>
              rw [Bool.and_eq_true] at hgo
              -- the link is kept: there was room, it is short, and it was not there before
              have hroom : p.links.length < 20 := of_decide_eq_true hgo.1
              have hshort : link.length ≤ 1024 := of_decide_eq_true hgo.2
              have hfresh : link ∉ p.links := fun hmem =>
                hnew (List.contains_iff_mem.mpr hmem)
              refine { h with count := ?_, distinct := ?_, links := ?_ }
              · show (p.links ++ [link]).length ≤ 20
                rw [List.length_append]
                exact hroom
              · exact List.nodup_append.mpr ⟨h.distinct, List.nodup_singleton _, by
                  intro a ha b hb hab
                  rw [hab, List.mem_singleton.mp hb] at ha
                  exact hfresh ha⟩
              · intro other hother
                rcases List.mem_append.mp hother with hold | hlast
                · exact h.links other hold
                · rw [List.mem_singleton.mp hlast]
                  exact ⟨hshort, linkOf_eq_some hlink⟩
            next => exact { h with }

theorem bounded_handleStarttag {p : PageParser} (h : Bounded lib p) (tag : PyStr)
    (attrs : List (PyStr × Option PyStr)) :
    Bounded lib (p.handleStarttag pageLimits lib tag attrs) := by
  cases htag : hiddenTags.contains tag with
  | true =>
      rw [handleStarttag_hidden htag]
      exact { h with }
  | false =>
      by_cases hhidden : p.hidden = []
      · have hspaced : Bounded lib (if p.inTitle then p else p.textBoundary pageLimits) := by
          split
          · exact h
          · exact bounded_textBoundary h
        have hanchor : Bounded lib
            (if tag = "a".toList then p.addHref pageLimits lib (hrefOf attrs) else p) := by
          split
          · exact bounded_addHref h _
          · exact h
        rw [handleStarttag_visible htag hhidden]
        exact ⟨h.title, hspaced.text, hspaced.spaced, hanchor.count, hanchor.distinct,
          hanchor.links⟩
      · rw [handleStarttag_inside htag hhidden]
        exact h

theorem bounded_handle {p : PageParser} (h : Bounded lib p) (call : Callback) :
    Bounded lib (p.handle pageLimits lib call) := by
  cases call with
  | starttag tag attrs => exact bounded_handleStarttag h tag attrs
  | endtag tag =>
      show Bounded lib (p.handleEndtag pageLimits tag)
      unfold handleEndtag
      split
      · split
        · exact { h with }
        · exact h
      split
      · exact { h with }
      split
      · exact h
      · exact bounded_textBoundary h
  | data text =>
      show Bounded lib (p.handleData pageLimits text)
      unfold handleData
      split
      · exact h
      dsimp only
      split
      · exact h
      split
      -- the title and the text are both cut to their limits
      · exact { h with title := List.length_take_le _ _ }
      · exact { h with
          text := List.length_take_le _ _
          spaced := (singleSpaced_combine h.spaced (singleSpaced_collapse text)).take 2048 }

/-! ## The two machines -/

/-- The texts of the two machines: the one without limits may be one separator ahead,
when the other is full. -/
def SameText (s u : PyStr) : Prop :=
  s = u ∨ s.length = 2048 ∧ endsInSpace s = false ∧ u = s ++ [' ']

/-- The two machines are in the same mode, and have found the same unless a truncation is
flagged. -/
structure Matches (s u : PageParser) : Prop where
  url : s.url = u.url
  inTitle : s.inTitle = u.inTitle
  hidden : s.hidden = u.hidden
  found : s.outputTruncated = false → s.title = u.title ∧ SameText s.text u.text ∧ s.links = u.links

theorem SameText.strip_eq {s u : PyStr} (h : SameText s u) : strip s = strip u := by
  rcases h with rfl | ⟨-, -, rfl⟩
  · rfl
  · obtain ⟨lead, trail, hsplit, hlead, htrail⟩ := exists_strip s
    have htrail' : Blank (trail ++ [' ']) := by
      intro c hc
      rcases List.mem_append.mp hc with hin | hlast
      · exact htrail c hin
      · rw [List.mem_singleton.mp hlast]
        exact isSpace_blank
    have hsplit' : s ++ [' '] = lead ++ (strip s ++ (trail ++ [' '])) := by
      conv_lhs => rw [hsplit]
      simp only [List.append_assoc]
    rw [hsplit', strip_between hlead htrail']

theorem endsInSpace_concat (s : PyStr) : endsInSpace (s ++ [' ']) = true := by
  simp [endsInSpace]

/-- A separator keeps the texts together: one that no longer fits is the only difference. -/
theorem sameText_textBoundary {s u : PageParser} (h : SameText s.text u.text)
    (hfit : s.text.length ≤ 2048) :
    SameText (s.textBoundary pageLimits).text (u.textBoundary noLimits).text := by
  have hfree : below noLimits.text u.text.length = true := rfl
  have hheld : below pageLimits.text s.text.length = decide (s.text.length < 2048) := rfl
  rw [text_textBoundary, text_textBoundary]
  simp only [hfree, hheld, Bool.and_true]
  rcases h with heq | ⟨hfull, hend, hahead⟩
  · rw [← heq]
    cases hwants : !s.text.isEmpty && !endsInSpace s.text with
    | false => exact .inl rfl
    | true =>
        by_cases hroom : s.text.length < 2048
        · simp only [hroom, decide_true, Bool.true_and, if_true]
          exact .inl rfl
        · rw [Bool.and_eq_true, Bool.not_eq_true', Bool.not_eq_true'] at hwants
          simp only [hroom, decide_false, Bool.and_false, Bool.false_eq_true, if_true, if_false]
          exact .inr ⟨by omega, hwants.2, rfl⟩
  · have hnot : ¬ s.text.length < 2048 := by omega
    rw [hahead, endsInSpace_concat]
    simp only [hnot, decide_false, Bool.not_true, Bool.and_false, Bool.false_eq_true, if_false]
    exact .inr ⟨hfull, hend, rfl⟩

theorem matches_textBoundary {s u : PageParser} (h : Matches s u) (hfit : s.text.length ≤ 2048) :
    Matches (s.textBoundary pageLimits) (u.textBoundary noLimits) := by
  rw [textBoundary_eq pageLimits s, textBoundary_eq noLimits u]
  refine { h with found := fun hflag => ?_ }
  obtain ⟨htitle, htext, hlinks⟩ := h.found hflag
  exact ⟨htitle, sameText_textBoundary htext hfit, hlinks⟩

/-- An anchor that flags nothing gives both machines the same link. -/
theorem addHref_unflagged {s : PageParser} {href : Option PyStr}
    (hflag : (s.addHref pageLimits lib href).outputTruncated = false) :
    s.outputTruncated = false ∧ ∀ u : PageParser, s.url = u.url → s.links = u.links →
      (s.addHref pageLimits lib href).links = (u.addHref noLimits lib href).links := by
  cases href with
  | none => exact ⟨hflag, fun _ _ h => h⟩
  | some href =>
      rw [addHref] at hflag ⊢
      by_cases hempty : href.isEmpty = true
      · rw [if_pos hempty] at hflag
        refine ⟨hflag, fun u _ hlinks => ?_⟩
        rw [addHref, if_pos hempty, if_pos hempty]
        exact hlinks
      by_cases hlong : (!within pageLimits.href href.length) = true
      · rw [if_neg hempty, if_pos hlong] at hflag
        cases hflag
      rw [if_neg hempty, if_neg hlong] at hflag
      -- without limits the `href` is never too long
      have hfree : ¬ (!within noLimits.href href.length) = true := Bool.false_ne_true
      have hsame : ∀ u : PageParser, s.url = u.url → u.linkOf lib href = s.linkOf lib href := by
        intro u hurl
        rw [linkOf, linkOf, hurl]
      rw [if_neg hempty, if_neg hlong]
      -- the link depends on the page and the `href`, which the machines share
      cases hlink : s.linkOf lib href with
      | none =>
          rw [hlink] at hflag
          refine ⟨hflag, fun u hurl hlinks => ?_⟩
          rw [addHref, if_neg hempty, if_neg hfree, hsame u hurl, hlink]
          exact hlinks
      | some link =>
          rw [hlink] at hflag
          dsimp only at hflag ⊢
          by_cases hseen : s.links.contains link = true
          · rw [if_pos hseen] at hflag
            refine ⟨hflag, fun u hurl hlinks => ?_⟩
            rw [addHref, if_neg hempty, if_neg hfree, hsame u hurl, hlink, if_pos hseen]
            dsimp only
            rw [← hlinks, if_pos hseen]
            exact hlinks
          · rw [if_neg hseen] at hflag
            rw [if_neg hseen]
            split at hflag
            -- room and length suffice, so no flag; without limits they always do
            next hroom =>
              refine ⟨hflag, fun u hurl hlinks => ?_⟩
              have hfree' : (below noLimits.links u.links.length &&
                within noLimits.link link.length) = true := rfl
              rw [addHref, if_neg hempty, if_neg hfree, hsame u hurl, hlink, if_pos hroom]
              dsimp only
              rw [← hlinks, if_neg hseen, hlinks, if_pos hfree']
            next => cases hflag

theorem matches_handleStarttag {s u : PageParser} (h : Matches s u)
    (hfit : s.text.length ≤ 2048) (tag : PyStr) (attrs : List (PyStr × Option PyStr)) :
    Matches (s.handleStarttag pageLimits lib tag attrs)
      (u.handleStarttag noLimits lib tag attrs) := by
  cases htag : hiddenTags.contains tag with
  | true =>
      rw [handleStarttag_hidden htag, handleStarttag_hidden htag]
      exact { h with hidden := congrArg (· ++ [tag]) h.hidden }
  | false =>
      by_cases hhidden : s.hidden = []
      · have hspaced : SameText s.text u.text →
            SameText (if s.inTitle then s else s.textBoundary pageLimits).text
              (if u.inTitle then u else u.textBoundary noLimits).text := by
          intro htext
          rw [← h.inTitle]
          split
          · exact htext
          · exact sameText_textBoundary htext hfit
        rw [handleStarttag_visible htag hhidden, handleStarttag_visible htag (h.hidden ▸ hhidden)]
        refine { h with inTitle := ?_, found := fun hflag => ?_ }
        · show (s.inTitle || _) = (u.inTitle || _)
          rw [h.inTitle]
        -- both machines have taken the same anchor, if it was one
        by_cases ha : tag = "a".toList
        · simp only [if_pos ha] at hflag ⊢
          obtain ⟨hbefore, hlinks⟩ := addHref_unflagged hflag
          obtain ⟨htitle, htext, hsame⟩ := h.found hbefore
          exact ⟨htitle, hspaced htext, hlinks u h.url hsame⟩
        · simp only [if_neg ha] at hflag ⊢
          obtain ⟨htitle, htext, hsame⟩ := h.found hflag
          exact ⟨htitle, hspaced htext, hsame⟩
      · rw [handleStarttag_inside htag hhidden, handleStarttag_inside htag (h.hidden ▸ hhidden)]
        exact h

theorem matches_handleEndtag {s u : PageParser} (h : Matches s u)
    (hfit : s.text.length ≤ 2048) (tag : PyStr) :
    Matches (s.handleEndtag pageLimits tag) (u.handleEndtag noLimits tag) := by
  unfold handleEndtag
  rw [← h.hidden, ← h.inTitle]
  split
  · split
    · exact { h with inTitle := rfl, hidden := rfl }
    · exact h
  split
  · exact { h with inTitle := rfl, hidden := rfl }
  split
  · exact h
  · exact matches_textBoundary h hfit

/-- A text that is not found too long is not cut. -/
theorem clip_of_within {limit : Option Nat} {s : PyStr} (h : within limit s.length = true) :
    clip limit s = s := by
  cases limit with
  | none => rfl
  | some m => exact List.take_of_length_le (of_decide_eq_true h)

theorem matches_handleData {s u : PageParser} (h : Matches s u) (data : PyStr) :
    Matches (s.handleData pageLimits data) (u.handleData noLimits data) := by
  unfold handleData
  rw [← h.hidden, ← h.inTitle]
  split
  · exact h
  dsimp only
  split
  · exact h
  next hdata =>
    split
    -- inside the title: the text stays as it is
    · refine ⟨h.url, rfl, rfl, fun hflag => ?_⟩
      obtain ⟨hbefore, hfits⟩ := (Bool.or_eq_false_iff).mp hflag
      obtain ⟨htitle, htext, hlinks⟩ := h.found hbefore
      refine ⟨?_, htext, hlinks⟩
      show clip pageLimits.title (combine s.title (collapse data)) = combine u.title (collapse data)
      rw [clip_of_within (Bool.not_eq_eq_eq_not.mp hfits), htitle]
    -- outside it: the text grows, and is not cut as nothing was flagged
    · refine ⟨h.url, rfl, rfl, fun hflag => ?_⟩
      obtain ⟨hbefore, hfits⟩ := (Bool.or_eq_false_iff).mp hflag
      have hfits' := Bool.not_eq_eq_eq_not.mp hfits
      obtain ⟨htitle, htext, hlinks⟩ := h.found hbefore
      refine ⟨htitle, ?_, hlinks⟩
      show SameText (clip pageLimits.text (combine s.text (collapse data)))
        (combine u.text (collapse data))
      rw [clip_of_within hfits']
      rcases htext with heq | ⟨hfull, hend, -⟩
      · rw [heq]
        exact .inl rfl
      · -- the text is full: whatever comes is cut, and flagged
        have hlen : (combine s.text (collapse data)).length ≤ 2048 := of_decide_eq_true hfits'
        rw [combine, hend, if_neg Bool.false_ne_true, List.length_append, hfull] at hlen
        have hnil : collapse data = [] := List.length_eq_zero_iff.mp (by omega)
        rw [hnil] at hdata
        exact absurd rfl hdata

theorem matches_handle {s u : PageParser} (h : Matches s u) (hfit : s.text.length ≤ 2048)
    (call : Callback) :
    Matches (s.handle pageLimits lib call) (u.handle noLimits lib call) := by
  cases call with
  | starttag tag attrs => exact matches_handleStarttag h hfit tag attrs
  | endtag tag => exact matches_handleEndtag h hfit tag
  | data text => exact matches_handleData h text

theorem run_matches (lib : UrlLib) (url : PyStr) (calls : List Callback) :
    Bounded lib (run pageLimits lib url calls) ∧
      Matches (run pageLimits lib url calls) (run noLimits lib url calls) := by
  unfold run
  suffices hall : ∀ calls : List Callback, ∀ s u : PageParser, Bounded lib s → Matches s u →
      Bounded lib (calls.foldl (handle pageLimits lib) s) ∧
        Matches (calls.foldl (handle pageLimits lib) s) (calls.foldl (handle noLimits lib) u) by
    exact hall calls _ _ (bounded_new url) ⟨rfl, rfl, rfl, fun _ => ⟨rfl, .inl rfl, rfl⟩⟩
  intro calls
  induction calls with
  | nil => exact fun s u hs hsu => ⟨hs, hsu⟩
  | cons call calls ih =>
      intro s u hs hsu
      exact ih _ _ (bounded_handle hs call) (matches_handle hsu hs.text call)

end PageParser

/-- Whatever handlers are called, the extraction stays within its bounds; unless it flags
a truncation, its title, text and links are those of the machine without limits. -/
theorem extraction_lossless (lib : UrlLib) (url : PyStr) (calls : List Callback) :
    Bounded lib (PageParser.run pageLimits lib url calls) ∧
      ((PageParser.run pageLimits lib url calls).outputTruncated = false →
        strip (PageParser.run pageLimits lib url calls).title =
          strip (PageParser.run noLimits lib url calls).title ∧
        strip (PageParser.run pageLimits lib url calls).text =
          strip (PageParser.run noLimits lib url calls).text ∧
        (PageParser.run pageLimits lib url calls).links =
          (PageParser.run noLimits lib url calls).links) := by
  obtain ⟨hbounded, hmatches⟩ := PageParser.run_matches lib url calls
  refine ⟨hbounded, fun hflag => ?_⟩
  obtain ⟨htitle, htext, hlinks⟩ := hmatches.found hflag
  exact ⟨by rw [htitle], htext.strip_eq, hlinks⟩

end SrxProbe.Generators
