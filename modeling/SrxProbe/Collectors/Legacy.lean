import SrxProbe.Collectors.Reading

/-!
# Legacy lines

The tag of a legacy line stands alone before its first field, and its fields are those
outside quoted values, except where the first tag is itself a key, and where a value that
was cut off has text in it that reads like a field.
-/

namespace SrxProbe.Collectors

open SrxProbe.Lib SrxProbe.Lib.Regex SrxProbe.Validation

/-! ## Tags -/

/-- The name of an event of a known family. -/
def eventTag : Regex :=
  cat
    [alt (cat [lit "RT_".toList, plus (cls isTagChar), chr '_'])
      (alt (lit "APPTRACK_".toList) (alt (lit "WEBFILTER_".toList) (lit "AV_".toList))),
    plus (cls fun c => isTagChar c || c = '_')]

theorem legacyTagRe_eq : legacyTagRe = cat
    [look fun before _ => before.head?.all isSpace, group 1 eventTag,
      look fun _ rest => rest = [] || rest = ['\n'] ||
        rest.head?.any fun c => c = ':' || isSpace c] := rfl

theorem underscore_mem_tag {w : List Char} (h : w ∈ eventTag.lang) : '_' ∈ w := by
  obtain ⟨family, hfamily, name, -, rfl⟩ := mem_lang_cat_cons.mp h
  apply List.mem_append_left
  rcases mem_lang_alt.mp hfamily with hrt | hother
  · obtain ⟨rt, hlit, u, -, rfl⟩ := mem_lang_cat_cons.mp hrt
    rw [mem_lang_lit.mp hlit]
    exact List.mem_append_left _ (by decide)
  · rcases mem_lang_alt.mp hother with happ | hother
    · rw [mem_lang_lit.mp happ]
      decide
    · rcases mem_lang_alt.mp hother with hweb | hav
      · rw [mem_lang_lit.mp hweb]
        decide
      · rw [mem_lang_lit.mp hav]
        decide

theorem tag_ne_nil {w : List Char} (h : w ∈ eventTag.lang) : w ≠ [] :=
  List.ne_nil_of_mem (underscore_mem_tag h)

/-- A tag could be a key. -/
theorem isKeyChar_of_mem_tag {w : List Char} (h : w ∈ eventTag.lang) :
    ∀ c ∈ w, isKeyChar c = true := by
  have htag : ∀ c, isTagChar c = true → isKeyChar c = true := by
    intro c hc
    simp only [isTagChar, isKeyChar, Bool.or_eq_true] at hc ⊢
    tauto
  have hname : ∀ c, (isTagChar c || decide (c = '_')) = true → isKeyChar c = true := by
    intro c hc
    rcases Bool.or_eq_true_iff.mp hc with hc | hc
    · exact htag c hc
    · rw [of_decide_eq_true hc]
      decide
  have hlit : ∀ {text : PyStr}, text.all isKeyChar = true →
      (lit text).Over (isKeyChar · = true) := fun h => over_lit (List.all_eq_true.mp h)
  have hunder : (lit ['_']).Over (isKeyChar · = true) := hlit (by decide)
  have hrt : (cat [lit "RT_".toList, plus (cls isTagChar), chr '_']).Over (isKeyChar · = true) :=
    ⟨hlit (by decide), ⟨htag, htag⟩, hunder⟩
  have hfamily : Over (isKeyChar · = true) (alt (lit "APPTRACK_".toList)
      (alt (lit "WEBFILTER_".toList) (lit "AV_".toList))) :=
    ⟨hlit (by decide), hlit (by decide), hlit (by decide)⟩
  -- `eventTag` is its families in front of a name, each of letters, digits and `_`
  have hover : eventTag.Over (isKeyChar · = true) := ⟨⟨hrt, hfamily⟩, ⟨hname, hname⟩, trivial⟩
  exact over_of_mem_lang rfl hover h

/-- The first tag of a line, between what stands before it and what follows it. -/
structure FirstTag (before tag behind : PyStr) : Prop where
  known : tag ∈ eventTag.lang
  start : ∀ c, before.getLast? = some c → isSpace c = true
  no_bracket : '[' ∉ before ++ tag
  no_equals : '=' ∉ before ++ tag
  stop : ∀ c, behind.head? = some c → c = ':' ∨ c = '[' ∨ c = '=' ∨ isSpace c = true
  first : ∀ before' tag' c after, before = before' ++ (tag' ++ c :: after) →
    tag' ∈ eventTag.lang → (∀ c, before'.getLast? = some c → isSpace c = true) →
    ¬ (c = ':' ∨ isSpace c = true)

theorem legacyTagRe_match {before ahead : PyStr} {m : Match}
    (h : legacyTagRe.matchAt before ahead = some m) :
    m.group 1 = some m.text ∧ m.text ∈ eventTag.lang ∧ ahead = m.text ++ m.rest ∧
      (∀ c, before.head? = some c → isSpace c = true) ∧
      ∀ c, m.rest.head? = some c → c = ':' ∨ isSpace c = true := by
  obtain ⟨s', hs', rfl⟩ := Option.map_eq_some_iff.mp h
  obtain ⟨l, hl⟩ := List.head?_eq_some_iff.mp hs'
  rw [legacyTagRe_eq] at hl
  obtain ⟨hstart, t, ht, hstop, rfl⟩ := mem_run_framed.mp (hl ▸ List.mem_cons_self)
  obtain ⟨w, hw, hrest⟩ := (took_of_run t ht).word
  have htext : ahead.take (ahead.length - t.rest.length) = w := by
    rw [show ahead = w ++ t.rest from hrest, List.length_append, Nat.add_sub_cancel, List.take_left]
  have hmatch : (toMatch before ahead t).text = w := htext
  refine ⟨rfl, ?_, ?_, ?_, ?_⟩
  · show ahead.take (ahead.length - t.rest.length) ∈ eventTag.lang
    rw [htext]
    exact hw
  · show ahead = ahead.take (ahead.length - t.rest.length) ++ t.rest
    rw [htext]
    exact hrest
  · intro c hc
    dsimp only at hstart
    rw [hc] at hstart
    exact hstart
  -- the lookahead: `:`, white space, or the end, behind which a line feed may stand
  · intro c hc
    have hhead : t.rest.head? = some c := hc
    obtain ⟨rest, hrest'⟩ := List.head?_eq_some_iff.mp hhead
    rw [hrest'] at hstop
    rcases Bool.or_eq_true_iff.mp hstop with hend | hnext
    · have hfeed : c :: rest = ['\n'] := by simpa using hend
      rw [(List.cons.inj hfeed).1]
      exact .inr (by decide)
    · simpa using hnext

/-- A tag between white space and what may follow one is found. -/
theorem legacyTagRe_found {before tag rest : PyStr} (htag : tag ∈ eventTag.lang)
    (hstart : ∀ c, before.head? = some c → isSpace c = true)
    (hstop : ∃ c, rest.head? = some c ∧ (c = ':' ∨ isSpace c = true)) :
    legacyTagRe.matchAt before (tag ++ rest) ≠ none := by
  obtain ⟨c, hc, hend⟩ := hstop
  obtain ⟨groups', hrun⟩ := exists_run_of_mem_lang rfl htag before rest []
  have hfront : before.head?.all isSpace = true := by
    cases hhead : before.head? with
    | none => rfl
    | some d => exact hstart d hhead
  have hback : (decide (rest = []) || decide (rest = ['\n']) ||
      rest.head?.any fun c => decide (c = ':') || isSpace c) = true := by
    rw [hc]
    simp [hend]
  have hmem : _ ∈ legacyTagRe.run ⟨before, tag ++ rest, []⟩ :=
    mem_run_framed.mpr ⟨hfront, _, hrun, hback, rfl⟩
  intro hnone
  rw [matchAt, Option.map_eq_none_iff, List.head?_eq_none_iff] at hnone
  rw [hnone] at hmem
  cases hmem

/-- What the parser takes for the preamble, and what follows it. -/
theorem preamble_split (line : PyStr) :
    ∃ rest, (line.takeWhile (· ≠ '[')).takeWhile (· ≠ '=') ++ rest = line ∧
      ∀ c, rest.head? = some c → c = '[' ∨ c = '=' := by
  refine ⟨(line.takeWhile (· ≠ '[')).dropWhile (· ≠ '=') ++ line.dropWhile (· ≠ '['), ?_, ?_⟩
  · rw [← List.append_assoc, List.takeWhile_append_dropWhile, List.takeWhile_append_dropWhile]
  · intro c hc
    rw [List.head?_append] at hc
    cases hhead : ((line.takeWhile (· ≠ '[')).dropWhile (· ≠ '=')).head? with
    | some d =>
        rw [hhead] at hc
        cases hc
        exact .inr (by simpa using head_dropWhile hhead)
    | none =>
        rw [hhead] at hc
        exact .inl (by simpa using head_dropWhile (s := line) hc)

/-- The tag of a legacy line is the first one. -/
theorem exists_firstTag {line tag fieldText : PyStr} (h : legacyText line = some (tag, fieldText)) :
    ∃ before, line = before ++ (tag ++ fieldText) ∧ FirstTag before tag fieldText := by
  obtain ⟨rest, hline, hrest⟩ := preamble_split line
  unfold legacyText at h
  dsimp only at h
  split at h
  · cases h
  next m hsearch =>
    obtain ⟨before, ahead, hpreamble, hmatch, hfirst⟩ := matchAt_of_searchFrom hsearch
    obtain ⟨hgroup, hknown, hahead, hstart, hstop⟩ := legacyTagRe_match hmatch
    have hbefore := (text_of_matchAt hmatch).2.2
    have hsplit : line = before ++ (m.text ++ (m.rest ++ rest)) := by
      rw [← hline, hpreamble, hahead]
      simp
    have hdrop : line.drop m.stop = m.rest ++ rest := by
      rw [Match.stop, hbefore, List.append_nil, List.length_reverse, ← List.length_append, hsplit,
        ← List.append_assoc, List.drop_left]
    rw [hgroup, hdrop] at h
    cases h
    -- the search ran over the preamble, in front of the first `[` and the first `=`
    have hin : ∀ c ∈ before ++ m.text, c ∈ (line.takeWhile (· ≠ '[')).takeWhile (· ≠ '=') := by
      intro c hc
      rw [hpreamble, hahead, ← List.append_assoc]
      exact List.mem_append_left _ hc
    refine ⟨before, hsplit, ⟨hknown, ?_, ?_, ?_, ?_, ?_⟩⟩
    · intro c hc
      apply hstart c
      rw [List.append_nil, List.head?_reverse]
      exact hc
    · intro hmem
      have h := List.mem_takeWhile_imp ((List.takeWhile_subset _) (hin '[' hmem))
      exact absurd rfl (of_decide_eq_true h)
    · intro hmem
      have h := List.mem_takeWhile_imp (hin '=' hmem)
      exact absurd rfl (of_decide_eq_true h)
    · intro c hc
      rw [List.head?_append] at hc
      -- behind the tag stands what the lookahead saw, or else what ended the preamble
      cases hhead : m.rest.head? with
      | some d =>
          rw [hhead] at hc
          cases hc
          rcases hstop c hhead with hcolon | hspace
          · exact .inl hcolon
          · exact .inr (.inr (.inr hspace))
      | none =>
          rw [hhead] at hc
          rcases hrest c hc with hbracket | hequals
          · exact .inr (.inl hbracket)
          · exact .inr (.inr (.inl hequals))
    · intro before' tag' c after hearlier htag' hstart' hend
      -- an earlier tag would have been found first
      have hlt : before'.length < before.length := by
        have hpos := List.length_pos_iff.mpr (tag_ne_nil htag')
        rw [hearlier, List.length_append, List.length_append]
        omega
      have hnone := hfirst before' (tag' ++ (c :: after ++ ahead))
        (by rw [hpreamble, hearlier]; simp) hlt
      refine legacyTagRe_found htag' ?_ ⟨c, rfl, hend⟩ hnone
      intro d hd
      apply hstart' d
      rw [List.append_nil, List.head?_reverse] at hd
      exact hd

/-! ## Tags that stand alone -/

/-- A tag stands alone in a line, before its first `[` and its first key. -/
structure Alone (before tag behind : PyStr) : Prop where
  start : ∀ c, before.getLast? = some c → isSpace c = true
  stop : ∀ c, behind.head? = some c → c = ':' ∨ c = '[' ∨ isSpace c = true
  no_bracket : '[' ∉ before ++ tag
  no_key : ∀ ahead name value, before ++ (tag ++ behind) = ahead ++ (name ++ '=' :: value) →
    name ≠ [] → (∀ c ∈ name, isKeyChar c = true) → (before ++ tag).length ≤ ahead.length

def StandsAlone (line tag : PyStr) : Prop :=
  ∃ before behind, line = before ++ (tag ++ behind) ∧ Alone before tag behind

/-- No key begins in a text without `=` in front of one that goes on no key. -/
theorem key_behind {u s ahead name value : PyStr} (hu : '=' ∉ u)
    (hs : ∀ c, s.head? = some c → isKeyChar c = false ∧ c ≠ '=')
    (hname : ∀ c ∈ name, isKeyChar c = true) (h : u ++ s = ahead ++ (name ++ '=' :: value)) :
    u.length ≤ ahead.length := by
  rcases List.append_eq_append_iff.mp h with ⟨a, rfl, -⟩ | ⟨a, rfl, ha⟩
  · rw [List.length_append]
    exact Nat.le_add_right _ _
  · -- the key would reach from `a` over the head of `s`
    rcases List.append_eq_append_iff.mp ha with ⟨b, rfl, hb⟩ | ⟨b, rfl, hb⟩
    · cases b with
      | nil =>
          rw [List.nil_append] at hb
          exact absurd rfl (hs '=' (by rw [← hb]; rfl)).2
      | cons c b =>
          cases hb
          exact absurd (by simp) hu
    · cases b with
      | nil =>
          rw [List.nil_append] at hb
          exact absurd rfl (hs '=' (by rw [hb]; rfl)).2
      | cons c b =>
          have hc := (hs c (by rw [hb]; rfl)).1
          rw [hname c (by simp)] at hc
          cases hc

namespace FirstTag

variable {before tag behind : PyStr}

/-- What follows a tag goes on no key, unless it is `=`. -/
theorem no_key_behind (h : FirstTag before tag behind) (hequals : behind.head? ≠ some '=')
    (c : Char) (hc : behind.head? = some c) : isKeyChar c = false ∧ c ≠ '=' := by
  rcases h.stop c hc with rfl | rfl | rfl | hspace
  · decide
  · decide
  · exact absurd hc hequals
  · exact other_of_isSpace hspace

/-- The first tag stands alone if it is no key itself. -/
theorem alone (h : FirstTag before tag behind) (hequals : behind.head? ≠ some '=') :
    Alone before tag behind := by
  refine ⟨h.start, ?_, h.no_bracket, ?_⟩
  · intro c hc
    rcases h.stop c hc with hcolon | hbracket | rfl | hspace
    · exact .inl hcolon
    · exact .inr (.inl hbracket)
    · exact absurd hc hequals
    · exact .inr (.inr hspace)
  · intro ahead name value hline _ hname
    rw [← List.append_assoc] at hline
    exact key_behind h.no_equals (h.no_key_behind hequals) hname hline

/-- If some tag stands alone in the line, then the first one is no key. -/
theorem not_key (h : FirstTag before tag behind) {line tag' : PyStr}
    (hline : line = before ++ (tag ++ behind)) (htag' : tag' ∈ eventTag.lang)
    (halone : StandsAlone line tag') : behind.head? ≠ some '=' := by
  intro hequals
  obtain ⟨value, rfl⟩ := List.head?_eq_some_iff.mp hequals
  obtain ⟨before', behind', hline', halone⟩ := halone
  -- that tag would be found in front of the key
  have hle := halone.no_key before tag value (hline' ▸ hline) (tag_ne_nil h.known)
    (isKeyChar_of_mem_tag h.known)
  have hsame : (before' ++ tag') ++ behind' = before ++ (tag ++ '=' :: value) := by
    rw [List.append_assoc, ← hline', hline]
  obtain ⟨between, hbefore⟩ : ∃ between, before = (before' ++ tag') ++ between := by
    have hprefix : before' ++ tag' <+: before :=
      List.prefix_of_prefix_length_le ⟨behind', hsame⟩ ⟨tag ++ '=' :: value, rfl⟩ hle
    exact ⟨_, hprefix.choose_spec.symm⟩
  rw [hbefore, List.append_assoc _ between] at hsame
  have hbehind : behind' = between ++ (tag ++ '=' :: value) := List.append_cancel_left hsame
  cases between with
  | nil =>
      obtain ⟨c, name, hname⟩ := List.exists_cons_of_ne_nil (tag_ne_nil h.known)
      have hkey := isKeyChar_of_mem_tag h.known c (hname ▸ List.mem_cons_self)
      rcases halone.stop c (by rw [hbehind, hname]; rfl) with rfl | rfl | hspace
      · exact absurd hkey (by decide)
      · exact absurd hkey (by decide)
      · rw [(other_of_isSpace hspace).1] at hkey
        cases hkey
  | cons c between =>
      have hc : c ≠ '[' := by
        rintro rfl
        apply h.no_bracket
        rw [hbefore]
        simp
      refine h.first before' tag' c between (by rw [hbefore, List.append_assoc]) htag'
        halone.start ?_
      rcases halone.stop c (by rw [hbehind]; rfl) with hcolon | hbracket | hspace
      · exact .inl hcolon
      · exact absurd hbracket hc
      · exact .inr hspace

end FirstTag

/-! ## What the parser takes -/

/-- The event takes its type from a tag that stands alone, and its fields from outside the
quoted values. -/
structure Attributed (line : PyStr) (ev : TelemetryEvent) : Prop where
  tag : StandsAlone line ev.eventType
  fields : ∀ name value, ev.fields.get? name = some value →
    ∃ text, value = .str text ∧ (name, text) ∈ (reading line).fields

section parse

variable {p : Platform} {now : Timestamp} {recvTime : Option Timestamp} {line : PyStr}
  {ev : TelemetryEvent}

/-- The event of a legacy line, from its first tag and what follows that. -/
theorem legacy_parts (hlf : '\n' ∉ strip line)
    (hlegacy : brokenHeaderRe.matchAt [] (strip line) = none)
    (hparse : parseSyslogLine p now line recvTime = some ev) :
    ∃ before behind, strip line = before ++ (ev.eventType ++ behind) ∧
      FirstTag before ev.eventType behind ∧
      (behind.head? ≠ some '=' → ev.fields = (Dict.ofPairs ((reading (strip line)).fields ++
        (reading (strip line)).cutFields)).mapValues .str) := by
  obtain ⟨fieldText, htext, hfields, -⟩ := exists_lineText hparse
  have hlast : (strip line).getLast? ≠ some '\n' := fun h => hlf (List.mem_of_getLast? h)
  unfold lineText at htext
  rw [headerRe_none hlast hlegacy, hlegacy] at htext
  obtain ⟨before, hline, hfirst⟩ := exists_firstTag htext
  refine ⟨before, fieldText, hline, hfirst, ?_⟩
  intro hequals
  have hsame : reading (strip line) = reading fieldText := by
    rw [hline, ← List.append_assoc]
    exact reading_append hfirst.no_equals (hfirst.no_key_behind hequals)
  have hbehind : '\n' ∉ fieldText := fun h => hlf (by rw [hline]; simp [h])
  have hall := assignments_eq hbehind []
  rw [hfields, hsame, ← hall]
  rfl

/-- **Where a legacy line is read right**: where some tag stands alone before the first
field, and what reads like a field in a value that was cut off is a field as well. -/
theorem attributed_iff (hlf : '\n' ∉ line)
    (hlegacy : brokenHeaderRe.matchAt [] (strip line) = none)
    (hparse : parseSyslogLine p now line recvTime = some ev) :
    Attributed (strip line) ev ↔
      (∃ tag ∈ eventTag.lang, StandsAlone (strip line) tag) ∧
      ∀ name value, (Dict.ofPairs (reading (strip line)).cutFields).get? name = some value →
        (name, value) ∈ (reading (strip line)).fields := by
  obtain ⟨before, behind, hline, hfirst, hfields⟩ :=
    legacy_parts (not_mem_strip hlf) hlegacy hparse
  constructor
  · intro h
    refine ⟨⟨ev.eventType, hfirst.known, h.tag⟩, ?_⟩
    intro name value hcut
    have hget : ev.fields.get? name = some (.str value) := by
      rw [hfields (hfirst.not_key hline hfirst.known h.tag), Dict.get?_mapValues,
        Dict.get?_ofPairs_append, hcut]
      rfl
    obtain ⟨text, htext, hmem⟩ := h.fields name _ hget
    cases htext
    exact hmem
  · intro h
    -- some tag stands alone, hence the first one is not a key and stands alone as well
    obtain ⟨⟨tag, hknown, halone⟩, hcut⟩ := h
    have hequals := hfirst.not_key hline hknown halone
    refine ⟨⟨before, behind, hline, hfirst.alone hequals⟩, ?_⟩
    intro name value hget
    rw [hfields hequals, Dict.get?_mapValues, Dict.get?_ofPairs_append] at hget
    obtain ⟨text, htext, rfl⟩ := Option.map_eq_some_iff.mp hget
    refine ⟨text, rfl, ?_⟩
    -- the later assignment wins: one of the cut value, or one of the line
    rcases Option.or_eq_some_iff.mp htext with hlater | ⟨-, hfield⟩
    · exact hcut name text hlater
    · exact Dict.mem_of_get?_ofPairs hfield

end parse

/-! ## Runs -/

/-- What the lines below make of letters and addresses. -/
def quietPlatform : Platform := ⟨fun q => q, fun s => s, fun _ => true⟩

/-- A tag, a field, and a field whose quoted value looks like another one. -/
def denyLine : PyStr := "RT_FLOW_SESSION_DENY: src-port=1 policy-name=\"x src-ip=192.0.2.1\"".toList

theorem attributed_iff_denyLine :
    ∃ ev, parseSyslogLine quietPlatform .nonfinite denyLine none = some ev ∧
      Attributed (strip denyLine) ev := by
  have hsome : (parseSyslogLine quietPlatform .nonfinite denyLine none).isSome = true := by
    decide +kernel
  obtain ⟨ev, hparse⟩ := Option.isSome_iff_exists.mp hsome
  refine ⟨ev, hparse, (attributed_iff (by decide) (by decide +kernel) hparse).mpr ⟨?_, ?_⟩⟩
  · have hclass : ∀ {w : PyStr} {p : Char → Bool}, w ≠ [] → w.all p = true →
        w ∈ (plus (cls p)).lang := fun hne h => mem_lang_plus_cls hne (List.all_eq_true.mp h)
    have hfamily : "RT_FLOW_".toList ∈
        (cat [lit "RT_".toList, plus (cls isTagChar), chr '_']).lang :=
      mem_lang_cat_cons.mpr ⟨_, mem_lang_lit.mpr rfl, "FLOW_".toList, mem_lang_cat_cons.mpr
        ⟨"FLOW".toList, hclass (by decide) (by decide), "_".toList,
          mem_lang_cat_last.mpr (mem_lang_chr.mpr rfl), rfl⟩, rfl⟩
    have hknown : "RT_FLOW_SESSION_DENY".toList ∈ eventTag.lang :=
      mem_lang_cat_cons.mpr ⟨"RT_FLOW_".toList, .inl hfamily, "SESSION_DENY".toList,
        mem_lang_cat_last.mpr (hclass (by decide) (by decide)), rfl⟩
    have hline : strip denyLine = "RT_FLOW_SESSION_DENY".toList ++
        ": src-port=1 policy-name=\"x src-ip=192.0.2.1\"".toList := by decide +kernel
    refine ⟨_, hknown, [], _, hline, ⟨nofun, ?_, by decide, ?_⟩⟩
    · intro c hc
      cases hc
      exact .inl rfl
    · intro ahead name value hsplit _ hname
      refine key_behind (by decide) ?_ hname hsplit
      intro c hc
      cases hc
      decide
  · have hcut : (reading (strip denyLine)).cutFields = [] := by decide +kernel
    intro name value hget
    rw [hcut] at hget
    cases hget

/-- A value that lost its closing quote. -/
def cutLine : PyStr := "RT_FLOW_SESSION_DENY: policy-name=\"x src-ip=192.0.2.1".toList

/-- A tag that is a key. -/
def keyLine : PyStr := "RT_FLOW_SESSION_DENY=1 src-ip=192.0.2.1".toList

/-- The cut value supplies a field, and the key the event type. -/
theorem misattributed :
    ('\n' ∉ cutLine ∧ brokenHeaderRe.matchAt [] (strip cutLine) = none ∧
      ∃ ev, parseSyslogLine quietPlatform .nonfinite cutLine none = some ev ∧
        ¬ Attributed (strip cutLine) ev) ∧
    ('\n' ∉ keyLine ∧ brokenHeaderRe.matchAt [] (strip keyLine) = none ∧
      ∃ ev, parseSyslogLine quietPlatform .nonfinite keyLine none = some ev ∧
        ¬ Attributed (strip keyLine) ev) := by
  refine ⟨⟨by decide, by decide +kernel, ?_⟩, by decide, by decide +kernel, ?_⟩
  · have hobserved : (parseSyslogLine quietPlatform .nonfinite cutLine none).map
        (fun ev => ev.fields.get? "src-ip".toList) = some (some (.str "192.0.2.1".toList)) := by
      decide +kernel
    obtain ⟨ev, hparse, hget⟩ := Option.map_eq_some_iff.mp hobserved
    refine ⟨ev, hparse, ?_⟩
    intro h
    obtain ⟨text, -, hmem⟩ := h.fields _ _ hget
    -- the address was read from inside the value that was cut off
    have hfields : (reading (strip cutLine)).fields = [] := by decide +kernel
    rw [hfields] at hmem
    cases hmem
  · have hobserved : (parseSyslogLine quietPlatform .nonfinite keyLine none).map
        (fun ev => ev.eventType) = some "RT_FLOW_SESSION_DENY".toList := by
      decide +kernel
    obtain ⟨ev, hparse, htype⟩ := Option.map_eq_some_iff.mp hobserved
    refine ⟨ev, hparse, ?_⟩
    intro h
    obtain ⟨before, behind, hline, halone⟩ := h.tag
    -- the event type is the key in front of `=1`
    have hle := halone.no_key [] "RT_FLOW_SESSION_DENY".toList "1 src-ip=192.0.2.1".toList
      (hline ▸ by decide +kernel) (by decide) (List.all_eq_true.mp (by decide))
    rw [htype, List.length_append] at hle
    exact absurd hle (by simp)

end SrxProbe.Collectors
