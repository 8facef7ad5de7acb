import SrxProbe.Generators.Pieces
import SrxProbe.Lib.Forest

/-!
# Hidden content

What the page parser makes of a well-nested page, delivered as start, data and end calls.
Elements that hide their content, with all that is in them, change nothing; a text under a
title goes to the title and every other one to the text, in the order of the page; and a
complete subtree leaves the hidden stack and the title flag as they were, wherever it stands.
-/

namespace SrxProbe.Generators

open SrxProbe.Lib

/-! ## Pages -/

/-- An element's tag and attributes. -/
structure Element where
  tag : PyStr
  attrs : List (PyStr × Option PyStr)
  deriving DecidableEq, Repr

/-- A well-nested page. -/
abbrev Page := Forest Element PyStr

/-- A visit as the call it is delivered as. -/
def callOf : Visit Element PyStr → Callback
  | .enter e => .starttag e.tag e.attrs
  | .leaf s => .data s
  | .leave e => .endtag e.tag

/-- A fresh parser after the calls for these visits. -/
def parsed (lib : UrlLib) (url : PyStr) (visits : List (Visit Element PyStr)) : PageParser :=
  PageParser.run pageLimits lib url (visits.map callOf)

def Element.isHidden (e : Element) : Bool := hiddenTags.contains e.tag

def Element.isTitle (e : Element) : Bool := e.tag = "title".toList

/-- None of the elements around hides its content. -/
def visible (path : List Element) : Bool := path.all (!·.isHidden)

def underTitle (path : List Element) : Bool := path.any (·.isTitle)

/-- No title element is inside another one. -/
def NoTitleInTitle (page : Page) : Prop :=
  ∀ n ∈ page.nodes [], n.2.isTitle = true → underTitle n.1 = false

instance (page : Page) : Decidable (NoTitleInTitle page) :=
  inferInstanceAs (Decidable (∀ n ∈ page.nodes [], n.2.isTitle = true → underTitle n.1 = false))

/-- The visible texts, those under a title or the other ones. -/
def visibleTexts (title : Bool) (visits : List (List Element × Visit Element PyStr)) :
    List PyStr :=
  visits.filterMap fun
    | (path, .leaf s) => if visible path && underTitle path == title then some s else none
    | _ => none

/-- The attributes of the visible anchors. -/
def anchors (visits : List (List Element × Visit Element PyStr)) :
    List (List (PyStr × Option PyStr)) :=
  visits.filterMap fun
    | (path, .enter e) => if visible path && e.tag = "a".toList then some e.attrs else none
    | _ => none

/-- The links that a page at `url` with nothing but these anchors has. -/
def linksOf (lib : UrlLib) (url : PyStr) (anchors : List (List (PyStr × Option PyStr))) :
    List PyStr :=
  (anchors.foldl (fun (p : PageParser) attrs => p.addHref pageLimits lib (hrefOf attrs))
    (PageParser.new url)).links

/-- `s` is the texts in their order, up to white space and the limit. -/
def Extracts (limit : Nat) (texts : List PyStr) (s : PyStr) : Prop :=
  ∃ shown, Interspersed isSpace texts shown ∧ s = (collapse shown).take limit

/-! ## The handlers -/

namespace PageParser

variable {limits : Limits} {p : PageParser} {tag : PyStr}

/-- A text under a title, when the title is within its limit. -/
theorem handleData_titled (hidden : p.hidden = []) (htitle : p.inTitle = true)
    (hfit : p.title.length ≤ 512) (data : PyStr) :
    ∃ flag, p.handleData pageLimits data = { p with
      title := clip (some 512) (combine p.title (collapse data))
      outputTruncated := flag } := by
  by_cases hdata : data = []
  · refine ⟨p.outputTruncated, ?_⟩
    simp [hdata, collapse_eq, squeeze, combine_eq, clip, List.take_of_length_le hfit]
  · exact ⟨_, handleData_title hidden htitle hdata⟩

/-- Any other visible text, when the text is within its limit. -/
theorem handleData_untitled (hidden : p.hidden = []) (htitle : p.inTitle = false)
    (hfit : p.text.length ≤ 2048) (data : PyStr) :
    ∃ flag, p.handleData pageLimits data = { p with
      text := clip (some 2048) (combine p.text (collapse data))
      outputTruncated := flag } := by
  by_cases hdata : data = []
  · refine ⟨p.outputTruncated, ?_⟩
    simp [hdata, collapse_eq, squeeze, combine_eq, clip, List.take_of_length_le hfit]
  · exact ⟨_, handleData_text hidden htitle hdata⟩

theorem handleEndtag_hidden {front : List PyStr} (h : p.hidden = front ++ [tag]) :
    p.handleEndtag limits tag = { p with hidden := front } := by
  simp [handleEndtag, h]

theorem handleEndtag_inside (h : p.hidden ≠ []) (htag : p.hidden.getLast? ≠ some tag) :
    p.handleEndtag limits tag = p := by
  simp [handleEndtag, h, htag]

/-- A visible end tag. -/
theorem handleEndtag_visible (h : p.hidden = []) :
    p.handleEndtag limits tag = { p with
      inTitle := p.inTitle && !decide (tag = "title".toList)
      text := if tag = "title".toList ∨ p.inTitle = true then p.text
        else (p.textBoundary limits).text } := by
  unfold handleEndtag
  simp only [h, List.isEmpty_nil, Bool.not_true, Bool.false_eq_true, if_false]
  by_cases htag : tag = "title".toList
  · rw [if_pos htag, if_pos (.inl htag), decide_eq_true htag, Bool.not_true, Bool.and_false, ← h]
  · rw [if_neg htag, decide_eq_false htag, Bool.not_false, Bool.and_true, ← h]
    by_cases hin : p.inTitle = true
    · rw [if_pos hin, if_pos (.inr hin)]
    · rw [if_neg hin, if_neg (not_or_intro htag hin)]
      exact textBoundary_eq limits p

end PageParser

/-! ## The modes of the parser -/

/-- The hidden stack inside these elements. -/
def hiddenAround (path : List Element) : List PyStr :=
  ((path.filter Element.isHidden).map Element.tag).reverse

/-- The title flag inside these elements: one of them is a visible title. -/
def titleOpen : List Element → Bool
  | [] => false
  | e :: path => titleOpen path || e.isTitle && visible path

section modes

variable {e : Element} {path : List Element}

theorem hiddenAround_cons_hidden (h : e.isHidden = true) :
    hiddenAround (e :: path) = hiddenAround path ++ [e.tag] := by
  simp [hiddenAround, h]

theorem hiddenAround_cons_shown (h : e.isHidden = false) :
    hiddenAround (e :: path) = hiddenAround path := by
  simp [hiddenAround, h]

theorem hiddenAround_eq_nil : hiddenAround path = [] ↔ visible path = true := by
  simp [hiddenAround, visible]

theorem hiddenAround_ne_nil (h : visible path = false) : hiddenAround path ≠ [] := by
  rw [Ne, hiddenAround_eq_nil, h]
  exact Bool.false_ne_true

theorem hidden_of_getLast {tag : PyStr} (h : (hiddenAround path).getLast? = some tag) :
    hiddenTags.contains tag = true := by
  have hmem := List.mem_of_getLast? h
  simp only [hiddenAround, List.mem_reverse, List.mem_map, List.mem_filter] at hmem
  obtain ⟨e, ⟨-, he⟩, rfl⟩ := hmem
  exact he

theorem Element.isHidden_of_isTitle (h : e.isTitle = true) : e.isHidden = false := by
  have htag : e.tag = "title".toList := of_decide_eq_true h
  rw [Element.isHidden, htag]
  decide

theorem Element.isTitle_of_isHidden (h : e.isHidden = true) : e.isTitle = false := by
  by_contra hno
  rw [Element.isHidden_of_isTitle (Bool.not_eq_false _ ▸ hno)] at h
  cases h

/-- Nothing visible is in a title that is hidden. -/
theorem titleOpen_of_visible (h : visible path = true) : titleOpen path = underTitle path := by
  induction path with
  | nil => rfl
  | cons e path ih =>
      have hpath : visible path = true := by
        rw [visible, List.all_cons, Bool.and_eq_true] at h
        exact h.2
      rw [titleOpen, ih hpath, hpath, Bool.and_true, underTitle, underTitle, List.any_cons,
        Bool.or_comm]

theorem titleOpen_of_not_visible (h : visible path = false) :
    titleOpen (e :: path) = titleOpen path := by
  rw [titleOpen, h, Bool.and_false, Bool.or_false]

end modes

/-! ## Texts up to white space -/

section extracts

variable {limit : Nat} {texts : List PyStr} {s : PyStr}

open PageParser in
theorem clip_collapse (limit : Nat) (shown data : PyStr) :
    clip (some limit) (combine ((collapse shown).take limit) (collapse data)) =
      (collapse (shown ++ data)).take limit := by
  have h := clip_combine (some limit) [] shown data
  simpa [clip, combine_eq] using h

theorem Extracts.nil : Extracts limit [] [] := ⟨[], .nil, by simp [collapse_eq, squeeze]⟩

/-- A text behind the others, when it is cut to the limit. -/
theorem Extracts.piece (h : Extracts limit texts s) (data : PyStr) :
    Extracts limit (texts ++ [data])
      (clip (some limit) (PageParser.combine s (collapse data))) := by
  obtain ⟨shown, hshown, rfl⟩ := h
  exact ⟨shown ++ data, .piece data hshown, clip_collapse limit shown data⟩

/-- A separator is white space. -/
theorem Extracts.boundary {p : PageParser} (h : Extracts 2048 texts p.text) :
    Extracts 2048 texts (p.textBoundary pageLimits).text := by
  rw [PageParser.text_textBoundary]
  split
  next hwants =>
    obtain ⟨shown, hshown, htext⟩ := h
    simp only [Bool.and_eq_true, Bool.not_eq_true', below, pageLimits, Option.all_some,
      decide_eq_true_eq] at hwants
    obtain ⟨⟨-, hend⟩, hroom⟩ := hwants
    -- there is room, so nothing has been cut off
    have hwhole : p.text = collapse shown := by
      rw [htext] at hroom ⊢
      rw [List.length_take] at hroom
      exact List.take_of_length_le (by omega)
    have hblank : ∀ c ∈ [' '], isSpace c = true := by simp [isSpace_blank]
    refine ⟨shown ++ [' '], hshown.blanks hblank, ?_⟩
    rw [collapse_eq, squeeze_append, squeeze_blanks hblank (List.cons_ne_nil _ _), ← collapse_eq,
      ← hwhole, glue_of_open (of_decide_eq_false hend), List.take_of_length_le]
    rw [List.length_append]
    exact hroom
  next => exact h

end extracts

/-! ## One visit -/

/-- The parser inside the elements of `path`, after these visits. -/
structure Extracted (lib : UrlLib) (url : PyStr) (path : List Element)
    (done : List (List Element × Visit Element PyStr)) (p : PageParser) : Prop where
  hidden : p.hidden = hiddenAround path
  inTitle : p.inTitle = titleOpen path
  page : p.url = url
  title : p.title = (collapse (visibleTexts true done).flatten).take 512
  text : Extracts 2048 (visibleTexts false done) p.text
  links : p.links = linksOf lib url (anchors done)

section visits

variable {lib : UrlLib} {url : PyStr} {path : List Element} {e : Element}
  {done : List (List Element × Visit Element PyStr)} {p : PageParser}

theorem visibleTexts_concat_leaf (title : Bool) (data : PyStr) :
    visibleTexts title (done ++ [(path, .leaf data)]) = visibleTexts title done ++
      if visible path && underTitle path == title then [data] else [] := by
  rw [visibleTexts, List.filterMap_append]
  congr 1
  rw [List.filterMap_cons]
  split <;> simp_all

@[simp] theorem visibleTexts_concat_enter (title : Bool) :
    visibleTexts title (done ++ [(path, .enter e)]) = visibleTexts title done := by
  simp [visibleTexts]

@[simp] theorem visibleTexts_concat_leave (title : Bool) :
    visibleTexts title (done ++ [(path, .leave e)]) = visibleTexts title done := by
  simp [visibleTexts]

@[simp] theorem anchors_concat_leaf (data : PyStr) :
    anchors (done ++ [(path, .leaf data)]) = anchors done := by
  simp [anchors]

@[simp] theorem anchors_concat_leave : anchors (done ++ [(path, .leave e)]) = anchors done := by
  simp [anchors]

theorem anchors_concat_enter : anchors (done ++ [(path, .enter e)]) = anchors done ++
    if visible path && e.tag = "a".toList then [e.attrs] else [] := by
  rw [anchors, List.filterMap_append]
  congr 1
  rw [List.filterMap_cons]
  split <;> simp_all

theorem url_foldl_addHref (as : List (List (PyStr × Option PyStr))) (p : PageParser) :
    (as.foldl (fun (p : PageParser) attrs => p.addHref pageLimits lib (hrefOf attrs)) p).url =
      p.url := by
  induction as generalizing p with
  | nil => rfl
  | cons attrs as ih => rw [List.foldl_cons, ih, PageParser.addHref_eq]

/-- The links of one more anchor. -/
theorem linksOf_concat {as : List (List (PyStr × Option PyStr))} (hpage : p.url = url)
    (hlinks : p.links = linksOf lib url as) (attrs : List (PyStr × Option PyStr)) :
    (p.addHref pageLimits lib (hrefOf attrs)).links = linksOf lib url (as ++ [attrs]) := by
  rw [linksOf, List.foldl_append]
  exact (PageParser.addHref_congr (hpage.trans (url_foldl_addHref as (.new url)).symm) hlinks _).1

/-- A text. -/
theorem Extracted.leaf (h : Extracted lib url path done p) (data : PyStr) :
    Extracted lib url path (done ++ [(path, .leaf data)]) (p.handleData pageLimits data) := by
  cases hvisible : visible path with
  | false =>
      have hinside : p.hidden ≠ [] := h.hidden ▸ hiddenAround_ne_nil hvisible
      rw [PageParser.handleData_hidden hinside]
      refine { h with title := ?_, text := ?_, links := ?_ }
      · simpa [visibleTexts_concat_leaf, hvisible] using h.title
      · simpa [visibleTexts_concat_leaf, hvisible] using h.text
      · simpa using h.links
  | true =>
      have hshown : p.hidden = [] := h.hidden.trans (hiddenAround_eq_nil.mpr hvisible)
      have hmode : p.inTitle = underTitle path := h.inTitle.trans (titleOpen_of_visible hvisible)
      cases htitle : underTitle path with
      | true =>
          have hfit : p.title.length ≤ 512 := by
            rw [h.title]
            exact List.length_take_le _ _
          obtain ⟨flag, hp⟩ := PageParser.handleData_titled hshown (hmode.trans htitle) hfit data
          rw [hp]
          refine { h with title := ?_, text := ?_, links := ?_ }
          · simp only [h.title, clip_collapse]
            simp [visibleTexts_concat_leaf, hvisible, htitle]
          · simpa [visibleTexts_concat_leaf, hvisible, htitle] using h.text
          · simpa using h.links
      | false =>
          have hfit : p.text.length ≤ 2048 := by
            obtain ⟨shown, -, htext⟩ := h.text
            rw [htext]
            exact List.length_take_le _ _
          obtain ⟨flag, hp⟩ := PageParser.handleData_untitled hshown (hmode.trans htitle) hfit data
          rw [hp]
          refine { h with title := ?_, text := ?_, links := ?_ }
          · simpa [visibleTexts_concat_leaf, hvisible, htitle] using h.title
          · simpa [visibleTexts_concat_leaf, hvisible, htitle] using h.text.piece data
          · simpa using h.links

/-- A start tag. -/
theorem Extracted.enter (h : Extracted lib url path done p) (e : Element) :
    Extracted lib url (e :: path) (done ++ [(path, .enter e)])
      (p.handleStarttag pageLimits lib e.tag e.attrs) := by
  cases hhidden : e.isHidden with
  | true =>
      have htag : e.tag ≠ "a".toList := by
        intro htag
        rw [Element.isHidden, htag] at hhidden
        exact absurd hhidden (by decide)
      rw [PageParser.handleStarttag_hidden hhidden]
      refine { h with hidden := ?_, inTitle := ?_, title := ?_, text := ?_, links := ?_ }
      · rw [hiddenAround_cons_hidden hhidden, ← h.hidden]
      · simpa [titleOpen, Element.isTitle_of_isHidden hhidden] using h.inTitle
      · simpa using h.title
      · simpa using h.text
      · rw [anchors_concat_enter, decide_eq_false htag]
        simpa using h.links
  | false =>
      have hstack : p.hidden = hiddenAround (e :: path) :=
        h.hidden.trans (hiddenAround_cons_shown hhidden).symm
      cases hvisible : visible path with
      | false =>
          have hinside : p.hidden ≠ [] := h.hidden ▸ hiddenAround_ne_nil hvisible
          rw [PageParser.handleStarttag_inside hhidden hinside]
          refine { h with hidden := hstack, inTitle := ?_, title := ?_, text := ?_, links := ?_ }
          · rw [titleOpen_of_not_visible hvisible]
            exact h.inTitle
          · simpa using h.title
          · simpa using h.text
          · simpa [anchors_concat_enter, hvisible] using h.links
      | true =>
          have hshown : p.hidden = [] := h.hidden.trans (hiddenAround_eq_nil.mpr hvisible)
          rw [PageParser.handleStarttag_visible hhidden hshown]
          refine { h with hidden := hstack, inTitle := ?_, title := ?_, text := ?_, links := ?_ }
          · rw [titleOpen, hvisible, Bool.and_true, ← h.inTitle]
            rfl
          · simpa using h.title
          · rw [visibleTexts_concat_enter]
            cases p.inTitle with
            | true => exact h.text
            | false => exact h.text.boundary
          · rw [anchors_concat_enter, hvisible]
            by_cases htag : e.tag = "a".toList
            · rw [decide_eq_true htag]
              show (if e.tag = "a".toList then _ else _ : PageParser).links = _
              rw [if_pos htag]
              exact linksOf_concat h.page h.links e.attrs
            · rw [decide_eq_false htag]
              show (if e.tag = "a".toList then _ else _ : PageParser).links = _
              rw [if_neg htag]
              simpa using h.links

/-- The end tag of an element. -/
theorem Extracted.leave {e : Element} (hok : e.isTitle = true → underTitle path = false)
    (h : Extracted lib url (e :: path) done p) :
    Extracted lib url path (done ++ [(path, .leave e)]) (p.handleEndtag pageLimits e.tag) := by
  cases hhidden : e.isHidden with
  | true =>
      have hstack : p.hidden = hiddenAround path ++ [e.tag] :=
        h.hidden.trans (hiddenAround_cons_hidden hhidden)
      rw [PageParser.handleEndtag_hidden hstack]
      refine { h with hidden := rfl, inTitle := ?_, title := ?_, text := ?_, links := ?_ }
      · simpa [titleOpen, Element.isTitle_of_isHidden hhidden] using h.inTitle
      · simpa using h.title
      · simpa using h.text
      · simpa using h.links
  | false =>
      have hstack : p.hidden = hiddenAround path :=
        h.hidden.trans (hiddenAround_cons_shown hhidden)
      cases hvisible : visible path with
      | false =>
          have hinside : p.hidden ≠ [] := hstack ▸ hiddenAround_ne_nil hvisible
          -- the stack ends in a tag that hides its content, and this one does not
          have htop : p.hidden.getLast? ≠ some e.tag := by
            intro hlast
            rw [hstack] at hlast
            exact ne_true_of_eq_false hhidden (hidden_of_getLast hlast)
          rw [PageParser.handleEndtag_inside hinside htop]
          refine { h with hidden := hstack, inTitle := ?_, title := ?_, text := ?_, links := ?_ }
          · rw [← titleOpen_of_not_visible hvisible]
            exact h.inTitle
          · simpa using h.title
          · simpa using h.text
          · simpa using h.links
      | true =>
          have hshown : p.hidden = [] := hstack.trans (hiddenAround_eq_nil.mpr hvisible)
          have hmode : p.inTitle = (underTitle path || e.isTitle) := by
            rw [h.inTitle, titleOpen, hvisible, Bool.and_true, titleOpen_of_visible hvisible]
          rw [PageParser.handleEndtag_visible hshown]
          refine { h with hidden := hstack, inTitle := ?_, title := ?_, text := ?_, links := ?_ }
          · rw [titleOpen_of_visible hvisible, hmode]
            show ((underTitle path || e.isTitle) && !e.isTitle) = underTitle path
            cases htitle : e.isTitle with
            | true => simp [hok htitle]
            | false => simp
          · simpa using h.title
          · rw [visibleTexts_concat_leave]
            show Extracts 2048 _ (if _ then _ else _)
            split
            · exact h.text
            · exact h.text.boundary
          · simpa using h.links

end visits

/-! ## Whole pages -/

section pages

variable (lib : UrlLib) (url : PyStr)

/-- The call that a visit is delivered as, made. -/
def PageParser.visit (p : PageParser) (v : Visit Element PyStr) : PageParser :=
  p.handle pageLimits lib (callOf v)

theorem parsed_eq (visits : List (Visit Element PyStr)) :
    parsed lib url visits = visits.foldl (PageParser.visit lib) (.new url) := by
  rw [parsed, PageParser.run, List.foldl_map]
  rfl

theorem extracted_new : Extracted lib url [] [] (.new url) where
  hidden := rfl
  inTitle := rfl
  page := rfl
  title := by simp [visibleTexts, PageParser.new, collapse_eq, squeeze]
  text := .nil
  links := rfl

/-- The parser at any point of a page. -/
theorem extracted_parsed {page : Page} (hpage : NoTitleInTitle page)
    {part : List (List Element × Visit Element PyStr)} (h : part <+: page.placed []) :
    Extracted lib url ((part.map Prod.snd).foldl Visit.next []) part
      (parsed lib url (part.map Prod.snd)) := by
  rw [parsed_eq]
  exact Forest.invariant_placed (PageParser.visit lib) (Extracted lib url)
    (fun data hinv => hinv.leaf data) (fun e _ hinv => hinv.enter e)
    (fun _ htitle hinv => hinv.leave htitle) page hpage (extracted_new lib url) h

/-- The modes at any point of a page. -/
theorem modes_parsed {page : Page} (hpage : NoTitleInTitle page)
    {before : List (Visit Element PyStr)} (h : before <+: page.visits) :
    (parsed lib url before).hidden = hiddenAround (before.foldl Visit.next []) ∧
      (parsed lib url before).inTitle = titleOpen (before.foldl Visit.next []) := by
  rw [← page.map_snd_placed [], List.prefix_map_iff] at h
  obtain ⟨part, hpart, rfl⟩ := h
  have hinv := extracted_parsed lib url hpage hpart
  exact ⟨hinv.hidden, hinv.inTitle⟩

/-- Inside a hidden element the calls of a forest change nothing. -/
theorem foldl_inside (content : Page) {p : PageParser} {tag : PyStr}
    (hlast : p.hidden.getLast? = some tag) (htag : hiddenTags.contains tag = true) :
    content.visits.foldl (PageParser.visit lib) p = p := by
  induction content generalizing p tag with
  | empty => rfl
  | leaf data rest ih =>
      have hinside : p.hidden ≠ [] := List.ne_nil_of_mem (List.mem_of_getLast? hlast)
      have hdata : p.visit lib (.leaf data) = p := PageParser.handleData_hidden hinside data
      rw [Forest.visits, List.foldl_cons, hdata]
      exact ih hlast htag
  | node e content rest ihContent ihRest =>
      rw [Forest.visits, List.foldl_cons, List.foldl_append, List.foldl_cons]
      cases hhidden : e.isHidden with
      | true =>
          have henter : p.visit lib (.enter e) = { p with hidden := p.hidden ++ [e.tag] } :=
            PageParser.handleStarttag_hidden hhidden
          have hleave : PageParser.visit lib { p with hidden := p.hidden ++ [e.tag] } (.leave e) =
              p := PageParser.handleEndtag_hidden rfl
          rw [henter, ihContent List.getLast?_concat hhidden, hleave]
          exact ihRest hlast htag
      | false =>
          have hinside : p.hidden ≠ [] := List.ne_nil_of_mem (List.mem_of_getLast? hlast)
          have htop : p.hidden.getLast? ≠ some e.tag := by
            intro htop
            rw [hlast, Option.some_inj] at htop
            rw [htop] at htag
            exact ne_true_of_eq_false hhidden htag
          have henter : p.visit lib (.enter e) = p :=
            PageParser.handleStarttag_inside hhidden hinside
          have hleave : p.visit lib (.leave e) = p := PageParser.handleEndtag_inside hinside htop
          rw [henter, ihContent hlast htag, hleave]
          exact ihRest hlast htag

/-- A hidden element changes nothing. -/
theorem visit_hidden {e : Element} (he : e.isHidden = true) (content : Page) (p : PageParser) :
    (content.visits.foldl (PageParser.visit lib) (p.visit lib (.enter e))).visit lib (.leave e) =
      p := by
  have henter : p.visit lib (.enter e) = { p with hidden := p.hidden ++ [e.tag] } :=
    PageParser.handleStarttag_hidden he
  rw [henter, foldl_inside lib content List.getLast?_concat he]
  exact PageParser.handleEndtag_hidden rfl

theorem parsed_prune (page : Page) :
    parsed lib url (page.prune Element.isHidden).visits = parsed lib url page.visits := by
  rw [parsed_eq, parsed_eq]
  exact page.foldl_prune (fun p _ content he => visit_hidden lib he content p) _

end pages

/-- **Hidden content never leaks and never sticks.** For a page without a title in a title:
the hidden elements may as well not be there; the title is of the visible texts under titles,
the text of all other visible texts, and the links are of the visible anchors, each in the
order of the page; and after a complete part of the page the hidden stack and the title flag
are what they were before it. -/
theorem hidden_content (lib : UrlLib) (url : PyStr) (page : Page) (hpage : NoTitleInTitle page) :
    parsed lib url (page.prune Element.isHidden).visits = parsed lib url page.visits ∧
    (parsed lib url page.visits).title =
      (collapse (visibleTexts true (page.placed [])).flatten).take 512 ∧
    Extracts 2048 (visibleTexts false (page.placed [])) (parsed lib url page.visits).text ∧
    (parsed lib url page.visits).links = linksOf lib url (anchors (page.placed [])) ∧
    ∀ (before after : List (Visit Element PyStr)) (part : Page),
      page.visits = before ++ part.visits ++ after →
        (parsed lib url (before ++ part.visits)).hidden = (parsed lib url before).hidden ∧
        (parsed lib url (before ++ part.visits)).inTitle = (parsed lib url before).inTitle := by
  have hinv := extracted_parsed lib url hpage List.prefix_rfl
  rw [page.map_snd_placed] at hinv
  refine ⟨parsed_prune lib url page, hinv.title, hinv.text, hinv.links, ?_⟩
  intro before after part hpart
  have hend : before ++ part.visits <+: page.visits := ⟨after, hpart.symm⟩
  obtain ⟨hhidden, htitle⟩ := modes_parsed lib url hpage hend
  obtain ⟨hhidden', htitle'⟩ := modes_parsed lib url hpage ((List.prefix_append _ _).trans hend)
  rw [List.foldl_append, part.foldl_next_visits] at hhidden htitle
  exact ⟨hhidden.trans hhidden'.symm, htitle.trans htitle'.symm⟩

section sample

/-- A page with a title and a link that are shown, and others that are not. -/
def samplePage : Page :=
  .node ⟨"html".toList, []⟩
    (.node ⟨"title".toList, []⟩ (.leaf "Home".toList .empty)
      (.leaf "one".toList
        (.node ⟨"a".toList, [("href".toList, some "https://a.example/".toList)]⟩
          (.leaf "two".toList .empty)
          (.node ⟨"template".toList, []⟩
            (.node ⟨"a".toList, [("href".toList, some "https://a.example/b".toList)]⟩
              (.leaf "three".toList .empty)
              (.node ⟨"title".toList, []⟩ (.leaf "Other".toList .empty)
                (.node ⟨"script".toList, []⟩ (.leaf "four".toList .empty) .empty)))
            (.leaf "five".toList .empty)))))
    .empty

/-- The answers for the links of the page. -/
def sampleUrls : UrlLib :=
  ⟨fun _ href => some href, fun _ => some ⟨"https".toList, "a.example".toList, none, none⟩⟩

theorem hidden_content_sample :
    NoTitleInTitle samplePage ∧
    (parsed sampleUrls "https://a.example/".toList samplePage.visits).title = "Home".toList ∧
    Extracts 2048 ["one".toList, "two".toList, "five".toList]
      (parsed sampleUrls "https://a.example/".toList samplePage.visits).text ∧
    (parsed sampleUrls "https://a.example/".toList samplePage.visits).links =
      ["https://a.example/".toList] ∧
    (parsed sampleUrls "https://a.example/".toList (samplePage.visits.take 15)).inTitle =
      (parsed sampleUrls "https://a.example/".toList (samplePage.visits.take 12)).inTitle := by
  have hpage : NoTitleInTitle samplePage := by decide
  obtain ⟨-, htitle, htext, hlinks, hparts⟩ :=
    hidden_content sampleUrls "https://a.example/".toList samplePage hpage
  refine ⟨hpage, htitle.trans ?_, htext, hlinks.trans ?_, ?_⟩
  · decide
  · decide
  · -- the twelve calls before the title in the template, and the three calls for it
    have hpart : samplePage.visits.take 15 = samplePage.visits.take 12 ++
        (Forest.node ⟨"title".toList, []⟩ (.leaf "Other".toList .empty) .empty : Page).visits := rfl
    rw [hpart]
    exact (hparts _ (samplePage.visits.drop 15) _ rfl).2

end sample

end SrxProbe.Generators
