import SrxProbe.Collectors.Decode
import SrxProbe.Collectors.Legacy

/-!
# Truncated records

A datagram may lose its end anywhere. The beginning of an accepted RFC5424 record is
either rejected, or read with the same event type and some of the record's own fields:
the words of the header are counted, and an element that is not whole is not one.
-/

namespace SrxProbe.Collectors

open SrxProbe.Lib SrxProbe.Lib.Regex SrxProbe.Validation

/-! ## Whole records -/

/-- An RFC5424 record as it is written. One without elements has nil structured data. -/
structure WrittenRecord where
  header : WrittenHeader
  elements : List WrittenElement
  message : PyStr
  apart : ∀ c, message.head? = some c → c = ' '

namespace WrittenRecord

variable (r : WrittenRecord)

/-- The structured data. -/
def sd : PyStr := if r.elements.isEmpty then ['-'] else elementsText r.elements

def body : PyStr := r.sd ++ r.message

def text : PyStr := r.header.text ++ r.body

/-- The name and the unescaped value of every parameter, in order. -/
def pairs : List (PyStr × PyStr) := r.elements.flatMap WrittenElement.pairs

/-- The text ends inside one of the record's elements. -/
def EndsInside (s : PyStr) : Prop :=
  ∃ before e after part, r.elements = before ++ e :: after ∧ part <+: e.text ∧ part ≠ [] ∧
    part ≠ e.text ∧ s = r.header.text ++ (elementsText before ++ part)

end WrittenRecord

/-- A text that begins one followed by another ends in the first or in the second. -/
theorem prefix_append_cases {α : Type} {s l l' : List α} (h : s <+: l ++ l') :
    s <+: l ∨ ∃ t, s = l ++ t ∧ t <+: l' := by
  rcases List.prefix_or_prefix_of_prefix h (List.prefix_append l l') with hin | ⟨t, rfl⟩
  · exact .inl hin
  · exact .inr ⟨t, rfl, (List.prefix_append_right_inj l).mp h⟩

/-! ## Words -/

/-- How many words begin in a text, behind white space or not. -/
def words (space : Bool) : PyStr → Nat
  | [] => 0
  | c :: rest => (if space && !isSpace c then 1 else 0) + words (isSpace c) rest

theorem words_prefix {s t : PyStr} (h : s <+: t) (space : Bool) :
    words space s ≤ words space t := by
  obtain ⟨u, rfl⟩ := h
  induction s generalizing space with
  | nil => exact Nat.zero_le _
  | cons c s ih => exact Nat.add_le_add_left (ih (isSpace c)) _

theorem words_solid {w : PyStr} (hne : w ≠ []) (hw : ∀ c ∈ w, isSpace c = false) (space : Bool)
    (rest : PyStr) : words space (w ++ rest) = (if space then 1 else 0) + words false rest := by
  induction w generalizing space with
  | nil => exact absurd rfl hne
  | cons c w ih =>
      have hc := hw c List.mem_cons_self
      rw [List.cons_append, words, hc, Bool.not_false, Bool.and_true]
      cases w with
      | nil => rfl
      | cons d w =>
          rw [ih (List.cons_ne_nil d w) (fun e he => hw e (List.mem_cons_of_mem c he))]
          simp

theorem Gap.words_append (gap : Gap) (space : Bool) (rest : PyStr) :
    words space (gap.text ++ rest) = words true rest := by
  obtain ⟨text, hne, hblank⟩ := gap
  induction text generalizing space with
  | nil => exact absurd rfl hne
  | cons c text ih =>
      have hc := hblank c List.mem_cons_self
      show (if space && !isSpace c then 1 else 0) + words (isSpace c) (text ++ rest) = _
      rw [hc, Bool.not_true, Bool.and_false]
      cases text with
      | nil => simp
      | cons d text =>
          rw [ih true (List.cons_ne_nil d text) fun e he => hblank e (List.mem_cons_of_mem c he)]
          simp

theorem Token.words_append (token : Token) (rest : PyStr) :
    words true (token.text ++ rest) = 1 + words false rest :=
  words_solid token.nonempty token.solid true rest

namespace WrittenHeader

variable (h : WrittenHeader)

/-- The mark of the header takes digits and angle brackets. -/
theorem mem_mark {c : Char} (hc : c ∈ h.mark) : isDecimal c = true ∨ c = '<' ∨ c = '>' := by
  simp only [mark, List.mem_cons, List.mem_append] at hc
  rcases hc with rfl | hc | rfl | rfl | hc
  · exact .inr (.inl rfl)
  · exact .inl (h.pri_digits c hc)
  · exact .inr (.inr rfl)
  · exact .inl (isDecimal_of_version h.version_head)
  · exact .inl (h.version_digits c hc)

/-- The mark of the header is one word. -/
theorem mark_solid : ∀ c ∈ h.mark, isSpace c = false := by
  intro c hc
  rcases h.mem_mark hc with hdigit | rfl | rfl
  · exact (isDecimal_solid hdigit).1
  · decide
  · decide

theorem mark_ne_nil : h.mark ≠ [] := List.cons_ne_nil _ _

/-- A header has five words behind its mark. -/
theorem words_text (body : PyStr) : words false (h.text ++ body) = 5 + words true body := by
  have hfields : words false (h.fields ++ body) = 5 + words true body := by
    simp only [fields, List.append_assoc, Gap.words_append, Token.words_append]
    omega
  rw [text, List.append_assoc, words_solid h.mark_ne_nil h.mark_solid, hfields]
  simp

/-- A header ends in white space. -/
theorem getLast_text : ∃ c, h.text.getLast? = some c ∧ isSpace c = true := by
  obtain ⟨c, hc⟩ := Option.isSome_iff_exists.mp
    (List.getLast?_isSome.mpr h.msgidGap.nonempty)
  refine ⟨c, ?_, h.msgidGap.blank c (List.mem_of_getLast? hc)⟩
  simp only [text, fields, List.getLast?_append, hc, Option.some_or]

end WrittenHeader

/-! ## Cut in the header -/

/-- A header that is not whole is not taken for one. -/
theorem headerRe_cut (h : WrittenHeader) {s : PyStr} (hcut : s <+: h.text) (hlf : '\n' ∉ s)
    (hend : ∀ c, s.getLast? = some c → isSpace c = false) : headerRe.matchAt [] s = none := by
  cases hmatch : headerRe.matchAt [] s with
  | none => rfl
  | some m =>
      have hlast : s.getLast? ≠ some '\n' := fun h => hlf (List.mem_of_getLast? h)
      obtain ⟨h', body, rfl, hsolid⟩ := exists_header (mem_lang_of_matchAt rfl hmatch hlast)
      have hfew : words false (h'.text ++ body) ≤ 5 := by
        have hle := words_prefix hcut false
        have hall := h.words_text []
        rw [List.append_nil] at hall
        rw [hall] at hle
        exact hle
      rw [h'.words_text] at hfew
      cases body with
      | nil =>
          obtain ⟨c, hc, hspace⟩ := h'.getLast_text
          rw [List.append_nil] at hend
          rw [hend c hc] at hspace
          cases hspace
      | cons c body =>
          have hc := hsolid c rfl
          rw [words, hc, Bool.not_false, Bool.and_true, if_pos rfl] at hfew
          omega

/-- Digits and angle brackets, as far as the mark goes, are no tag. -/
theorem legacyText_mark (h : WrittenHeader) {s : PyStr} (hcut : s <+: h.mark) :
    legacyText s = none := by
  cases htext : legacyText s with
  | none => rfl
  | some found =>
      obtain ⟨before, hline, hfirst⟩ := exists_firstTag htext
      have hmem : '_' ∈ s := by
        rw [hline]
        exact List.mem_append_right _ (List.mem_append_left _ (underscore_mem_tag hfirst.known))
      rcases h.mem_mark (hcut.subset hmem) with hdigit | hleft | hright
      · exact absurd rfl (isDecimal_solid hdigit).2.2.2
      · exact absurd hleft (by decide)
      · exact absurd hright (by decide)

/-- The beginning of a header gives nothing. -/
theorem lineText_cut (h : WrittenHeader) {s : PyStr} (hcut : s <+: h.text) (hlf : '\n' ∉ s)
    (hend : ∀ c, s.getLast? = some c → isSpace c = false) : lineText s = none := by
  unfold lineText
  rw [headerRe_cut h hcut hlf hend]
  dsimp only
  rcases prefix_append_cases hcut with hmark | ⟨rest, rfl, hrest⟩
  · rw [legacyText_mark h hmark, ite_self]
  cases rest with
  | nil =>
      rw [legacyText_mark h (by rw [List.append_nil]), ite_self]
  | cons c rest =>
      obtain ⟨d, hd, hspace⟩ := h.versionGap.head (h.timestamp.text ++ (h.timestampGap.text ++
        (h.host.text ++ (h.hostGap.text ++ (h.app.text ++ (h.appGap.text ++ (h.procid.text ++
        (h.procidGap.text ++ (h.msgid.text ++ h.msgidGap.text)))))))))
      have hc : c = d := by
        obtain ⟨u, hu⟩ := hrest
        have hhead : h.fields.head? = some d := hd
        rw [← hu] at hhead
        exact Option.some.inj hhead
      rw [if_pos (brokenHeaderRe_mark h (hc ▸ hspace) rest)]

/-! ## Cut in the structured data -/

/-- The structured data that is accepted is nil or some elements, apart from the message. -/
theorem exists_structured {body fieldText : PyStr} (h : structuredText body = some fieldText) :
    ∃ (elements : List WrittenElement) (message : PyStr),
      (∀ c, message.head? = some c → c = ' ') ∧
      body = (if elements.isEmpty then ['-'] else elementsText elements) ++ message := by
  unfold structuredText at h
  split at h
  next hnil =>
    rcases Bool.or_eq_true_iff.mp hnil with hdash | hspace
    · exact ⟨[], [], nofun, of_decide_eq_true hdash⟩
    · obtain ⟨rest, rfl⟩ := List.isPrefixOf_iff_prefix.mp hspace
      refine ⟨[], ' ' :: rest, ?_, rfl⟩
      intro c hc
      cases hc
      rfl
  next =>
    obtain ⟨⟨chunks, tail⟩, hloop, hok⟩ := Option.bind_eq_some_iff.mp h
    obtain ⟨elements, rfl, rfl⟩ := exists_elements hloop
    dsimp only at hok
    split at hok
    next => cases hok
    next hgood =>
      rw [Bool.or_eq_true, not_or, Bool.not_eq_true, List.isEmpty_map] at hgood
      refine ⟨elements, tail, ?_, ?_⟩
      · intro c hc
        by_contra hne
        apply hgood.2
        cases tail with
        | nil => cases hc
        | cons d tail =>
            cases hc
            simp [hne]
      · rw [if_neg (by rw [hgood.1]; exact Bool.false_ne_true)]

/-- A part of an element begins as the element does. -/
theorem head_part {e : WrittenElement} {part : PyStr} (hcut : part <+: e.text) (hnil : part ≠ []) :
    ∃ rest, part = '[' :: rest := by
  obtain ⟨u, hu⟩ := hcut
  cases part with
  | nil => exact absurd rfl hnil
  | cons c rest => exact ⟨rest, by rw [(List.cons.inj hu).1]⟩

/-- A part of an element behind whole ones is not left over: it is malformed. -/
theorem structuredText_part (before : List WrittenElement) (e : WrittenElement) {part : PyStr}
    (hcut : part <+: e.text) (hnil : part ≠ []) (hne : part ≠ e.text) :
    structuredText (elementsText before ++ part) = none := by
  obtain ⟨rest, rfl⟩ := head_part hcut hnil
  obtain ⟨ahead, hahead⟩ : ∃ ahead, elementsText before ++ '[' :: rest = '[' :: ahead := by
    cases before with
    | nil => exact ⟨rest, rfl⟩
    | cons e' before => exact ⟨_, rfl⟩
  have hmalformed : ∀ n past, sdElements (n + 1) past ('[' :: rest) = none := by
    intro n past
    rw [sdElements, sdRe_cut e hcut hne past]
  have hlong := length_le_elementsText before
  have hnone : sdElements (elementsText before ++ '[' :: rest).length []
      (elementsText before ++ '[' :: rest) = none := by
    obtain ⟨n, hn⟩ : ∃ n,
        (elementsText before ++ '[' :: rest).length - before.length = n + 1 :=
      ⟨(elementsText before ++ '[' :: rest).length - before.length - 1, by
        rw [List.length_append, List.length_cons]
        omega⟩
    rw [sdElements_append before [] _ (by rw [List.length_append]; omega), hn, hmalformed]
    rfl
  rw [hahead] at hnone ⊢
  rw [structuredText_bracket, ← List.length_cons, hnone]
  rfl

/-- The beginning of some elements is that of one of them behind some of them. -/
theorem prefix_elementsText {elements : List WrittenElement} {s : PyStr}
    (h : s <+: elementsText elements) :
    ∃ before after part, elements = before ++ after ∧ s = elementsText before ++ part ∧
      (part = [] ∨ ∃ e after', after = e :: after' ∧ part <+: e.text ∧ part ≠ e.text) := by
  induction elements generalizing s with
  | nil => exact ⟨[], [], [], rfl, List.prefix_nil.mp h, .inl rfl⟩
  | cons e elements ih =>
      have hsplit : s <+: e.text ++ elementsText elements := h
      rcases prefix_append_cases hsplit with hin | ⟨t, rfl, ht⟩
      · by_cases hwhole : s = e.text
        · refine ⟨[e], elements, [], rfl, ?_, .inl rfl⟩
          rw [hwhole]
          simp [elementsText]
        · exact ⟨[], e :: elements, s, rfl, rfl, .inr ⟨e, elements, rfl, hin, hwhole⟩⟩
      · obtain ⟨before, after, part, rfl, rfl, hpart⟩ := ih ht
        refine ⟨e :: before, after, part, rfl, ?_, hpart⟩
        rw [← List.append_assoc]
        rfl

namespace WrittenRecord

variable (r : WrittenRecord)

/-! ## What a whole record gives -/

theorem body_solid : SolidHead r.body := by
  unfold body sd
  cases r.elements with
  | nil =>
      intro c hc
      cases hc
      decide
  | cons e elements =>
      intro c hc
      cases hc
      decide

theorem structuredText_body :
    structuredText r.body = some ([' '].intercalate (r.elements.map WrittenElement.text)) := by
  unfold body sd
  cases helements : r.elements with
  | nil => exact structuredText_nil r.apart
  | cons e elements => exact structuredText_elements (List.cons_ne_nil e elements) r.apart

/-- A record without a line feed is read with its own tag and its own elements. -/
theorem lineText_text (hlf : '\n' ∉ r.text) :
    lineText r.text = (tagRe.fullmatch r.header.msgid.text).map fun _ =>
      (r.header.msgid.text, [' '].intercalate (r.elements.map WrittenElement.text)) := by
  have hline : '\n' ∉ r.body := fun h => hlf (List.mem_append_right _ h)
  rw [text, r.header.lineText hline r.body_solid, r.structuredText_body]
  cases tagRe.fullmatch r.header.msgid.text <;> rfl

/-- A line with a header whose structured data is accepted is a record. -/
theorem exists_text {line : PyStr} {found : PyStr × PyStr} (hlf : '\n' ∉ line)
    (hheader : (headerRe.matchAt [] line).isSome = true) (hfound : lineText line = some found) :
    ∃ r : WrittenRecord, line = r.text := by
  obtain ⟨m, hmatch⟩ := Option.isSome_iff_exists.mp hheader
  have hlast : line.getLast? ≠ some '\n' := fun h => hlf (List.mem_of_getLast? h)
  obtain ⟨header, body, rfl, hsolid⟩ := exists_header (mem_lang_of_matchAt rfl hmatch hlast)
  have hline : '\n' ∉ body := fun h => hlf (List.mem_append_right _ h)
  rw [header.lineText hline hsolid] at hfound
  obtain ⟨tag, -, hsd⟩ := Option.bind_eq_some_iff.mp hfound
  obtain ⟨fieldText, hfield, -⟩ := Option.map_eq_some_iff.mp hsd
  obtain ⟨elements, message, hapart, rfl⟩ := exists_structured hfield
  exact ⟨⟨header, elements, message, hapart⟩, rfl⟩

/-! ## Cut anywhere -/

/-- A record that loses its end loses a part of its header, or ends between two elements
or in its message, or ends inside an element. -/
theorem cut_cases {s : PyStr} (hcut : s <+: r.text) :
    s <+: r.header.text ∨
    (∃ r' : WrittenRecord, r'.header = r.header ∧ r'.elements <+: r.elements ∧ s = r'.text) ∨
    r.EndsInside s := by
  -- the cut is in the header, in the structured data or in the message
  rcases prefix_append_cases hcut with hheader | ⟨t, rfl, ht⟩
  · exact .inl hheader
  rcases prefix_append_cases ht with hsd | ⟨message, rfl, hmessage⟩
  -- with no elements the structured data is `-`, and a part of it is nothing or all
  · cases helements : r.elements with
    | nil =>
        rw [sd, helements] at hsd
        rcases List.prefix_cons_iff.mp hsd with rfl | ⟨rest, rfl, hrest⟩
        · rw [List.append_nil]
          exact .inl (List.prefix_refl _)
        · rw [List.prefix_nil.mp hrest]
          exact .inr (.inl ⟨⟨r.header, [], [], nofun⟩, rfl, List.nil_prefix, rfl⟩)
    | cons e elements =>
        have hprefix : t <+: elementsText r.elements := by
          rw [sd, helements] at hsd
          rw [helements]
          exact hsd
        obtain ⟨before, after, part, hsplit, rfl, hpart⟩ := prefix_elementsText hprefix
        -- between two elements the rest is a record with fewer of them, unless none is left
        by_cases hnil : part = []
        · rw [hnil, List.append_nil]
          cases before with
          | nil =>
              refine .inl ?_
              rw [elementsText, List.flatMap_nil, List.append_nil]
          | cons e' before =>
              refine .inr (.inl ⟨⟨r.header, e' :: before, [], nofun⟩, rfl, ⟨after, ?_⟩, ?_⟩)
              · rw [← helements, hsplit]
              · simp [text, body, sd]
        · obtain ⟨e', after', rfl, hin, hne⟩ := hpart.resolve_left hnil
          exact .inr (.inr ⟨before, e', after', part, hsplit, hin, hnil, hne, rfl⟩)
  · refine .inr (.inl ⟨⟨r.header, r.elements, message, ?_⟩, rfl, List.prefix_refl _, rfl⟩)
    intro c hc
    obtain ⟨u, hu⟩ := hmessage
    apply r.apart c
    rw [← hu, List.head?_append, hc]
    rfl

/-- A text that ends inside an element gives nothing. -/
theorem lineText_endsInside {s : PyStr} (hlf : '\n' ∉ s) (h : r.EndsInside s) :
    lineText s = none := by
  obtain ⟨before, e, after, part, -, hcut, hnil, hne, rfl⟩ := h
  have hline : '\n' ∉ elementsText before ++ part := fun h => hlf (List.mem_append_right _ h)
  have hsolid : SolidHead (elementsText before ++ part) := by
    obtain ⟨rest, hrest⟩ := head_part hcut hnil
    intro c hc
    cases before with
    | nil =>
        rw [hrest] at hc
        cases hc
        decide
    | cons e' before =>
        cases hc
        decide
  rw [r.header.lineText hline hsolid, structuredText_part before e hcut hnil hne]
  cases tagRe.fullmatch r.header.msgid.text <;> rfl

/-- White space at the end of a text is not what makes it end inside an element. -/
theorem endsInside_rdropWhile {s : PyStr} (h : r.EndsInside s) :
    r.EndsInside (s.rdropWhile isSpace) := by
  obtain ⟨before, e, after, part, helements, hcut, hnil, hne, rfl⟩ := h
  have hsolid : ¬ Blank part := by
    obtain ⟨rest, rfl⟩ := head_part hcut hnil
    intro hblank
    exact absurd (hblank '[' List.mem_cons_self) (by decide)
  have hshort : part.rdropWhile isSpace <+: part := List.rdropWhile_prefix _ _
  refine ⟨before, e, after, part.rdropWhile isSpace, helements, hshort.trans hcut,
    rdropWhile_ne_nil_of_not_blank hsolid, ?_, ?_⟩
  · intro heq
    rw [heq] at hshort
    exact hne (hcut.eq_of_length_le hshort.length_le)
  · rw [← List.append_assoc, rdropWhile_append_of_not_blank hsolid, List.append_assoc]

end WrittenRecord

/-! ## Parsing what is left -/

section parse

variable {p : Platform} {now : Timestamp} {recvTime : Option Timestamp} {s : PyStr}

theorem parseSyslogLine_none (h : lineText (strip s) = none) :
    parseSyslogLine p now s recvTime = none := by
  unfold parseSyslogLine
  dsimp only
  rw [h]
  split <;> rfl

/-- What is left of a record that was cut off, stripped, gives nothing or some of the
record's own pairs, through its header. -/
theorem WrittenRecord.lineText_cut (r : WrittenRecord) {eventType fieldText : PyStr}
    (hlf : '\n' ∉ r.text) (hcut : s <+: r.text)
    (hend : ∀ c, s.getLast? = some c → isSpace c = false)
    (hpart : lineText s = some (eventType, fieldText)) :
    eventType = r.header.msgid.text ∧ (headerRe.matchAt [] s).isSome = true ∧
      ∃ pairs, pairs <+: r.pairs ∧ fieldsOf fieldText = Dict.ofPairs pairs := by
  have hline : '\n' ∉ s := fun h => hlf (hcut.subset h)
  -- only the cut between elements or in the message leaves anything to read
  rcases r.cut_cases hcut with hheader | ⟨r', hsame, ⟨after, hafter⟩, rfl⟩ | hinside
  · rw [Collectors.lineText_cut r.header hheader hline hend] at hpart
    cases hpart
  · rw [r'.lineText_text hline] at hpart
    obtain ⟨tag, -, hpair⟩ := Option.map_eq_some_iff.mp hpart
    cases hpair
    have hbody : '\n' ∉ r'.body := fun h => hline (List.mem_append_right _ h)
    have hmatch := matchAt_of_eats [] (r'.header.eats hbody r'.body_solid)
    rw [List.append_nil] at hmatch
    refine ⟨by rw [hsame], ?_, r'.pairs, ?_, fieldsOf_writtenElements r'.elements⟩
    · show (headerRe.matchAt [] (r'.header.text ++ r'.body)).isSome = true
      rw [hmatch]
      rfl
    · refine ⟨after.flatMap WrittenElement.pairs, ?_⟩
      rw [pairs, pairs, ← List.flatMap_append, hafter]
  · rw [r.lineText_endsInside hline hinside] at hpart
    cases hpart

/-- A record that is cut off anywhere invents nothing. -/
theorem truncation_invents_nothing {line : PyStr} {ev : TelemetryEvent} (hlf : '\n' ∉ line)
    (hheader : (headerRe.matchAt [] (strip line)).isSome = true)
    (hparse : parseSyslogLine p now line recvTime = some ev) :
    (∃ r : WrittenRecord, strip line = r.text) ∧
    ∀ r : WrittenRecord, strip line = r.text → ∀ cut, cut <+: line → ∀ now' recvTime',
      (∀ ev', parseSyslogLine p now' cut recvTime' = some ev' →
        ev'.eventType = ev.eventType ∧
        (∀ name value, ev'.fields.get? name = some value →
          ∃ text, value = .str text ∧ (name, text) ∈ r.pairs) ∧
        (headerRe.matchAt [] (strip cut)).isSome = true) ∧
      (r.EndsInside (cut.dropWhile isSpace) → parseSyslogLine p now' cut recvTime' = none) := by
  obtain ⟨fieldText, hfull, -⟩ := exists_lineText hparse
  refine ⟨WrittenRecord.exists_text (not_mem_strip hlf) hheader hfull, ?_⟩
  intro r hr cut hcut now' recvTime'
  rw [hr] at hfull
  have htext : '\n' ∉ r.text := hr ▸ not_mem_strip hlf
  have hcutlf : '\n' ∉ cut := fun h => hlf (hcut.subset h)
  refine ⟨?_, ?_⟩
  -- stripping the cut line gives a part of the stripped record
  · intro ev' hev'
    obtain ⟨fieldText', hpart, hfields, -⟩ := exists_lineText hev'
    have hprefix : strip cut <+: r.text := hr ▸ strip_prefix_strip hcut
    obtain ⟨htype, hshape, pairs, hpairs, hof⟩ := r.lineText_cut htext hprefix
      (fun c hc => getLast_strip hc) hpart
    refine ⟨?_, ?_, hshape⟩
    · rw [r.lineText_text htext] at hfull
      obtain ⟨tag, -, hpair⟩ := Option.map_eq_some_iff.mp hfull
      rw [htype]
      exact congrArg Prod.fst hpair
    · intro name value hget
      rw [hfields, hof, Dict.get?_mapValues] at hget
      obtain ⟨text, htext, rfl⟩ := Option.map_eq_some_iff.mp hget
      exact ⟨text, rfl, hpairs.subset (Dict.mem_of_get?_ofPairs htext)⟩
  · intro hinside
    exact parseSyslogLine_none
      (r.lineText_endsInside (not_mem_strip hcutlf) (r.endsInside_rdropWhile hinside))

end parse

/-- A record as its source writes it. -/
def Record.whole (r : Record) : WrittenRecord where
  header := r.written
  elements := r.elements.map SdElement.written
  message := r.tail
  apart := by
    intro c hc
    rcases r.tail_cases with hnil | ⟨rest, hrest⟩
    · rw [hnil] at hc
      cases hc
    · rw [hrest] at hc
      cases hc
      rfl

theorem Record.text_whole (r : Record) : r.whole.text = strip r.encode := by
  obtain ⟨e, elements, helements⟩ := List.exists_cons_of_ne_nil r.elements_nonempty
  have hsd : r.whole.sd = encodeElements r.elements := by
    rw [← elementsText_written, WrittenRecord.sd, if_neg]
    · rfl
    · show (r.elements.map SdElement.written).isEmpty ≠ true
      rw [helements]
      exact Bool.false_ne_true
  rw [WrittenRecord.text, WrittenRecord.body, hsd, strip_encode, ← r.text_written]
  rfl

/-- `sessionCreate` up to the escaped bracket of its value. -/
def insideValue : PyStr := (strip Record.sessionCreate.encode).take 92

theorem truncation_invents_nothing_insideValue :
    parseSyslogLine ⟨fun q => q, fun s => s, fun _ => true⟩ .nonfinite insideValue none = none := by
  have hparse := Record.sessionCreate.parse_encode ⟨fun q => q, fun s => s, fun _ => true⟩
    .nonfinite none
  have hcut : insideValue <+: Record.sessionCreate.encode := by decide
  obtain ⟨-, hall⟩ := truncation_invents_nothing (by decide) (by decide +kernel) hparse
  refine (hall Record.sessionCreate.whole Record.sessionCreate.text_whole.symm insideValue hcut
    .nonfinite none).2 ⟨[], _, [], "[junos@2636 policy-name=\"a\\]".toList, rfl, ?_⟩
  decide

end SrxProbe.Collectors
