import SrxProbe.Collectors.Written

/-!
# Decoding a record

The four patterns stay aligned on every record: the header ends where the
structured data begins, an element ends at its own bracket, a quoted value at its
own quote, and unescaping reads the escapes as they were written. What follows
the structured data is never looked at.
-/

namespace SrxProbe.Collectors

open SrxProbe.Lib SrxProbe.Lib.Regex SrxProbe.Validation

/-! ## Quoted values -/

theorem escape_cons_escaped {c : Char} (hesc : isEscaped c = true) (value : PyStr) :
    escape (c :: value) = '\\' :: c :: escape value := by
  simp [escape, escapeChar, hesc]

theorem escape_cons_plain {c : Char} (hesc : isEscaped c = false) (value : PyStr) :
    escape (c :: value) = c :: escape value := by
  simp [escape, escapeChar, hesc]

theorem ne_backslash_of_plain {c : Char} (hesc : isEscaped c = false) : c ≠ '\\' := by
  rintro rfl
  cases hesc

theorem quotable_escape {value : PyStr} (hline : '\n' ∉ value) :
    isQuotable isSdPlain (escape value) = true := by
  induction value with
  | nil => rfl
  | cons c value ih =>
      have hc : c ≠ '\n' := fun h => hline (h ▸ List.mem_cons_self)
      have hrec := ih fun h => hline (List.mem_cons_of_mem c h)
      cases hesc : isEscaped c with
      | true =>
          rw [escape_cons_escaped hesc, isQuotable, hrec, Bool.and_true]
          exact decide_eq_true hc
      | false =>
          have hback := ne_backslash_of_plain hesc
          have hplain : isSdPlain c = true := by
            simpa [isSdPlain, isEscaped, and_assoc] using hesc
          rw [escape_cons_plain hesc, isQuotable.eq_3 _ _ _ (fun _ _ h => absurd h hback), hplain, hrec]
          rfl

section quoted

theorem unescapeFrom_escape (before : List Char) (value : PyStr) :
    escapeRe.subFrom (fun m => (m.group 1).getD []) before (escape value) = value := by
  induction value generalizing before with
  | nil => rfl
  | cons c value ih =>
      cases hesc : isEscaped c with
      | true =>
          have heq : escape (c :: value) = ['\\', c] ++ escape value :=
            escape_cons_escaped hesc value
          have heats : Eats escapeRe ['\\', c] (escape value) [] [(1, [c])] :=
            Eats.cat_chr (Eats.cat_last (Eats.group (Eats.cls hesc)))
          rw [heq, subFrom_found heats (List.cons_ne_nil _ _), ih]
          rfl
      | false =>
          have hback := ne_backslash_of_plain hesc
          have hrefuses : Refuses escapeRe (c :: escape value) [] :=
            Refuses.cat_cons (Refuses.chr (by simpa using hback))
          rw [escape_cons_plain hesc, subFrom_skip hrefuses, ih]

/-- Unescaping undoes escaping. -/
theorem unescape_escape (value : PyStr) : unescape (escape value) = value :=
  unescapeFrom_escape [] value

end quoted

/-! ## Structured data -/

/-- A single space. -/
def space : Gap := ⟨[' '], List.cons_ne_nil _ _, List.all_eq_true.mp (by decide)⟩

/-- An encoded parameter as it is written. -/
def SdParam.written (param : SdParam) : WrittenParam :=
  ⟨space, param.name, escape param.value, param.name_nonempty, param.name_chars,
    quotable_escape param.value_line⟩

def SdElement.written (e : SdElement) : WrittenElement :=
  ⟨e.id, e.params.map SdParam.written, e.id_nonempty, e.id_chars⟩

theorem SdParam.pair_written (param : SdParam) :
    param.written.pair = (param.name, param.value) := by
  show (param.name, unescape (escape param.value)) = _
  rw [unescape_escape]

theorem SdElement.text_written (e : SdElement) : e.written.text = e.encode := by
  unfold WrittenElement.text SdElement.written
  rw [List.flatMap_map]
  rfl

theorem SdElement.pairs_written (e : SdElement) :
    e.written.pairs = e.params.map fun param => (param.name, param.value) := by
  unfold WrittenElement.pairs SdElement.written
  rw [List.map_map]
  exact List.map_congr_left fun param _ => param.pair_written

theorem map_text_written (elements : List SdElement) :
    (elements.map SdElement.written).map WrittenElement.text = elements.map SdElement.encode := by
  rw [List.map_map]
  exact List.map_congr_left fun e _ => e.text_written

theorem elementsText_written (elements : List SdElement) :
    elementsText (elements.map SdElement.written) = encodeElements elements := by
  unfold elementsText encodeElements
  rw [List.flatMap_map]
  exact List.flatMap_congr fun e _ => e.text_written

theorem fieldsOf_elements (elements : List SdElement) :
    fieldsOf ([' '].intercalate (elements.map SdElement.encode)) =
      Dict.ofPairs
        (elements.flatMap fun e => e.params.map fun param => (param.name, param.value)) := by
  rw [← map_text_written, fieldsOf_writtenElements, List.flatMap_map]
  exact congrArg Dict.ofPairs (List.flatMap_congr fun e _ => e.pairs_written)

/-! ## The header -/

namespace Record

/-- The header as it is written. -/
def written (r : Record) : WrittenHeader where
  pri := r.pri
  versionHead := r.versionHead
  versionTail := r.versionTail
  versionGap := space
  timestamp := r.timestamp
  timestampGap := space
  host := r.host
  hostGap := space
  app := r.app
  appGap := space
  procid := r.procid
  procidGap := space
  msgid := ⟨r.msgid, r.msgid_nonempty, fun c hc => isSpace_of_isKeyChar (r.msgid_chars c hc)⟩
  msgidGap := space
  pri_nonempty := r.pri_nonempty
  pri_length := r.pri_length
  pri_digits := r.pri_digits
  version_head := r.version_head
  version_digits := r.version_digits

theorem text_written (r : Record) : r.written.text = r.header := by
  simp [WrittenHeader.text, WrittenHeader.mark, WrittenHeader.fields, written, space, header]

/-! ## The whole record -/

/-- What stripping leaves of the message. -/
def tail (r : Record) : PyStr := r.msgText.rdropWhile isSpace

theorem encodeElements_concat (r : Record) :
    ∃ front, encodeElements r.elements = front ++ [']'] := by
  obtain ⟨front, e, he⟩ := (List.eq_nil_or_concat r.elements).resolve_left r.elements_nonempty
  refine ⟨encodeElements front ++ '[' :: (e.id ++ e.params.flatMap SdParam.encode), ?_⟩
  rw [he]
  simp [encodeElements, SdElement.encode]

theorem strip_encode (r : Record) :
    strip r.encode = r.header ++ (encodeElements r.elements ++ r.tail) := by
  obtain ⟨front, hfront⟩ := r.encodeElements_concat
  have hdrop : r.encode.dropWhile isSpace = r.encode := by
    rw [encode, header, List.cons_append, List.dropWhile_cons_of_neg (by decide)]
  have hshape : ∀ m, r.header ++ (encodeElements r.elements ++ m) =
      r.header ++ front ++ [']'] ++ m := by
    intro m
    rw [hfront]
    simp
  have hlast : ∀ c, (r.header ++ front ++ [']']).getLast? = some c → isSpace c = false := by
    intro c hc
    rw [List.getLast?_concat] at hc
    cases hc
    decide
  rw [strip, hdrop, encode, hshape, rdropWhile_append_of_getLast hlast, ← hshape]
  rfl

theorem encodeElements_cons (r : Record) : ∃ rest, encodeElements r.elements = '[' :: rest := by
  obtain ⟨e, elements, he⟩ := List.exists_cons_of_ne_nil r.elements_nonempty
  exact ⟨_, by rw [he, encodeElements, List.flatMap_cons, SdElement.encode, List.cons_append]⟩

/-- The message is behind a space, if anything is left of it. -/
theorem tail_cases (r : Record) : r.tail = [] ∨ ∃ rest, r.tail = ' ' :: rest := by
  have hprefix : r.tail <+: r.msgText := List.rdropWhile_prefix _ _
  unfold msgText at hprefix
  cases hmsg : r.msg with
  | none =>
      rw [hmsg] at hprefix
      exact .inl (List.prefix_nil.mp hprefix)
  | some text =>
      rw [hmsg] at hprefix
      rcases List.prefix_cons_iff.mp hprefix with hnil | ⟨rest, hrest, -⟩
      · exact .inl hnil
      · exact .inr ⟨rest, hrest⟩

theorem lf_not_mem_tail (r : Record) : '\n' ∉ r.tail := by
  intro h
  have hmem : '\n' ∈ r.msgText := (List.rdropWhile_prefix _ _).subset h
  unfold msgText at hmem
  split at hmem
  · cases hmem
  · rename_i text htext
    rcases List.mem_cons.mp hmem with hlf | hlf
    · exact absurd hlf (by decide)
    · exact r.msg_line text htext hlf

theorem structuredText_body (r : Record) :
    structuredText (encodeElements r.elements ++ r.tail) =
      some ([' '].intercalate (r.elements.map SdElement.encode)) := by
  have hne : r.elements.map SdElement.written ≠ [] := by simp [r.elements_nonempty]
  have htail : ∀ c, r.tail.head? = some c → c = ' ' := by
    rcases r.tail_cases with h | ⟨rest, h⟩ <;> rw [h] <;> simp
  rw [← elementsText_written, structuredText_elements hne htail, map_text_written]

theorem lineText_encode (r : Record) :
    lineText (strip r.encode) =
      some (r.msgid, [' '].intercalate (r.elements.map SdElement.encode)) := by
  obtain ⟨rest, hrest⟩ := r.encodeElements_cons
  have hline : '\n' ∉ encodeElements r.elements ++ r.tail := by
    rw [List.mem_append, not_or]
    exact ⟨lf_not_mem_encodeElements r.elements, r.lf_not_mem_tail⟩
  have hsolid : SolidHead (encodeElements r.elements ++ r.tail) := by
    rw [hrest]
    intro c hc
    cases hc
    decide
  obtain ⟨tag, htag⟩ := Option.isSome_iff_exists.mp r.msgid_tag
  have hmsgid : r.written.msgid.text = r.msgid := rfl
  rw [strip_encode, ← r.text_written, r.written.lineText hline hsolid, hmsgid, htag,
    r.structuredText_body]
  rfl

/-- The fields of a record: its pairs, the last value of a name winning. -/
def fields (r : Record) : Dict PyStr PyStr := Dict.ofPairs r.pairs

/-- The event a record decodes to. -/
theorem parse_encode (p : Platform) (now : Timestamp) (recvTime : Option Timestamp) (r : Record) :
    parseSyslogLine p now r.encode recvTime =
      some
        { eventType := r.msgid
          fiveTuple := fiveTupleOf p r.fields
          timestamp := recvTime.getD now
          fields := r.fields.mapValues .str
          raw := strip r.encode } := by
  have hne : (strip r.encode).isEmpty = false := by
    rw [strip_encode, header, List.cons_append]
    rfl
  unfold parseSyslogLine
  dsimp only
  rw [if_neg (by rw [hne]; decide), r.lineText_encode]
  show some _ = some _
  rw [fieldsOf_elements]
  rfl

/-- The same record with another message. -/
def withMsg (r : Record) (msg : Option PyStr) (h : ∀ text, msg = some text → '\n' ∉ text) :
    Record :=
  { r with msg := msg, msg_line := h }

/-- Decoding is exact and does not depend on the message. -/
theorem decode_exact (p : Platform) (now : Timestamp) (recvTime : Option Timestamp) (r : Record) :
    ∃ ev, parseSyslogLine p now r.encode recvTime = some ev ∧ ev.eventType = r.msgid ∧
      (∃ fields : Dict PyStr PyStr, ev.fields = fields.mapValues .str ∧
        (∀ k, fields.get? k = r.pairs.reverse.lookup k) ∧ ev.fiveTuple = fiveTupleOf p fields) ∧
      ∀ msg hmsg, ∃ ev', parseSyslogLine p now (r.withMsg msg hmsg).encode recvTime = some ev' ∧
        ev'.eventType = ev.eventType ∧ ev'.fields = ev.fields ∧ ev'.fiveTuple = ev.fiveTuple := by
  refine ⟨_, r.parse_encode p now recvTime, rfl, ?_, ?_⟩
  · exact ⟨r.fields, rfl, Dict.get?_ofPairs r.pairs, rfl⟩
  · intro msg hmsg
    exact ⟨_, (r.withMsg msg hmsg).parse_encode p now recvTime, rfl, rfl, rfl⟩

/-- A record whose value looks like a field, with an escape, and a message that
looks like another one. -/
def sessionCreate : Record where
  pri := "14".toList
  versionHead := '1'
  versionTail := []
  timestamp := .ofText "2024-05-01T12:00:00Z".toList (by decide)
  host := .ofText "srx".toList (by decide)
  app := .ofText "RT_FLOW".toList (by decide)
  procid := .ofText "-".toList (by decide)
  msgid := "RT_FLOW_SESSION_CREATE".toList
  elements :=
    [{  id := "junos@2636".toList
        params :=
          [{  name := "policy-name".toList
              value := "a]=\"b".toList
              name_nonempty := by decide
              name_chars := List.all_eq_true.mp (by decide)
              value_line := by decide }]
        id_nonempty := by decide
        id_chars := List.all_eq_true.mp (by decide) }]
  msg := some "policy-name=\"c\"".toList
  pri_nonempty := by decide
  pri_length := by decide
  pri_digits := List.all_eq_true.mp (by decide)
  version_head := by decide
  version_digits := nofun
  msgid_tag := by decide
  elements_nonempty := by simp
  msg_line := by
    intro text htext
    cases htext
    decide

theorem decode_exact_sessionCreate (p : Platform) :
    ∃ ev, parseSyslogLine p .nonfinite sessionCreate.encode none = some ev ∧
      ev.eventType = "RT_FLOW_SESSION_CREATE".toList ∧
      ev.fields.get? "policy-name".toList = some (.str "a]=\"b".toList) := by
  obtain ⟨ev, hev, htype, ⟨fields, hfields, hget, -⟩, -⟩ :=
    sessionCreate.decode_exact p .nonfinite none
  refine ⟨ev, hev, htype, ?_⟩
  rw [hfields, Dict.get?_mapValues, hget]
  decide

end Record

end SrxProbe.Collectors
