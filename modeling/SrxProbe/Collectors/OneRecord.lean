import SrxProbe.Collectors.Ingest

/-!
# One frame, one record

A frame that carries a record adds the event of that record and nothing else,
exactly when no line boundary other than CR and LF stands inside the record:
`splitlines` knows more boundaries than the framing does.
-/

namespace SrxProbe.Collectors

open SrxProbe.Lib SrxProbe.Validation

/-! ## What the parser looks at -/

section parse

variable {p : Platform} {now : Timestamp} {line : PyStr} {recvTime : Option Timestamp}
  {ev : TelemetryEvent}

theorem parseSyslogLine_congr {line' : PyStr} (h : strip line = strip line') :
    parseSyslogLine p now line recvTime = parseSyslogLine p now line' recvTime := by
  unfold parseSyslogLine
  rw [h]

theorem parseSyslogLine_blank (h : Blank line) : parseSyslogLine p now line recvTime = none := by
  unfold parseSyslogLine
  rw [strip_of_blank h]
  rfl

/-- The event of a line, whatever the time. -/
theorem parseSyslogLine_some (h : parseSyslogLine p now line recvTime = some ev) :
    ev.raw = strip line ∧ ev.raw ≠ [] ∧ ∀ now' recvTime',
      parseSyslogLine p now' line recvTime' =
        some { ev with timestamp := recvTime'.getD now' } := by
  unfold parseSyslogLine at h ⊢
  dsimp only at h ⊢
  cases hempty : (strip line).isEmpty with
  | true =>
      rw [hempty, if_pos rfl] at h
      cases h
  | false =>
      rw [hempty, if_neg Bool.false_ne_true] at h
      obtain ⟨⟨eventType, fieldText⟩, htext, hev⟩ := Option.bind_eq_some_iff.mp h
      cases hev
      refine ⟨rfl, List.isEmpty_eq_false_iff.mp hempty, ?_⟩
      intro now' recvTime'
      rw [if_neg Bool.false_ne_true, htext]
      rfl

end parse

namespace Collector

/-! ## Counting the events added -/

/-- How many events the buffer has taken since it was last cleared, up to a constant. -/
def taken (c : Collector) : Nat := c.droppedEvents + c.events.items.length

theorem taken_addEvent (c : Collector) (ev : TelemetryEvent) :
    (c.addEvent ev).taken = c.taken + 1 := by
  have hbound := c.events.bounded
  have hpos := c.positive
  have hitems : (c.addEvent ev).events.items.length =
      min (c.events.items.length + 1) c.maxEvents := by
    show ((c.events.items ++ [ev]).rtake c.maxEvents).length = _
    rw [List.rtake, List.length_drop, List.length_append, List.length_singleton]
    omega
  rw [taken, hitems, taken, addEvent]
  dsimp only
  split <;> omega

theorem taken_foldl (events : List TelemetryEvent) (c : Collector) :
    (events.foldl addEvent c).taken = c.taken + events.length := by
  induction events generalizing c with
  | nil => rfl
  | cons ev events ih =>
      rw [List.foldl_cons, ih, taken_addEvent, List.length_cons]
      omega

theorem getLast?_addEvent (c : Collector) (ev : TelemetryEvent) :
    (c.addEvent ev).events.items.getLast? = some ev :=
  c.events.getLast?_push ev c.positive

/-- Adding some events is adding one only if that one is all there is to add. -/
theorem foldl_eq_addEvent {events : List TelemetryEvent} {c : Collector} {ev : TelemetryEvent}
    (h : events.foldl addEvent c = c.addEvent ev) : events = [ev] := by
  have htaken := congrArg taken h
  rw [taken_foldl, taken_addEvent] at htaken
  obtain ⟨e, rfl⟩ : ∃ e, events = [e] := List.length_eq_one_iff.mp (by omega)
  have hlast : (c.addEvent e).events.items.getLast? = (c.addEvent ev).events.items.getLast? :=
    congrArg (fun c : Collector => c.events.items.getLast?) h
  rw [getLast?_addEvent, getLast?_addEvent] at hlast
  rw [Option.some.inj hlast]

/-! ## The events of a frame -/

/-- The events of the lines of a text. -/
def lineEvents (p : Platform) (now : Timestamp) (text : PyStr) : List TelemetryEvent :=
  (splitlines text).filterMap fun rawLine => parseSyslogLine p now rawLine (some now)

section frame

variable (p : Platform) (clock : Nat → Timestamp)

theorem ingest_eq (c : Collector) (data : Bytes) :
    c.ingest p clock data =
      (lineEvents p (clock c.reads) (decodeUtf8 data)).foldl addEvent c.tick := by
  unfold ingest lineEvents
  rw [List.foldl_filterMap]
  show List.foldl _ _ _ = List.foldl _ _ _
  congr 1
  funext c' rawLine
  cases parseSyslogLine p (clock c.reads) rawLine (some (clock c.reads)) <;> rfl

variable {p} {record : PyStr}

/-- Without another boundary, the one line of the record gives its event. -/
theorem lineEvents_of_solid {now : Timestamp} {ev : TelemetryEvent}
    (hparse : parseSyslogLine p now record (some now) = some ev) (hcr : '\r' ∉ record)
    (hsolid : ∀ c ∈ strip record, isLineBreak c = false) : lineEvents p now record = [ev] := by
  obtain ⟨lead, trail, hrecord, hlead, htrail⟩ := exists_strip record
  have hne : strip record ≠ [] := by
    rw [← (parseSyslogLine_some hparse).1]
    exact (parseSyslogLine_some hparse).2.1
  have hcrLead : '\r' ∉ lead := by
    intro h
    rw [hrecord] at hcr
    exact hcr (List.mem_append_left _ h)
  obtain ⟨before, gap, gap', after, hlines, hgap, hgap', hbefore, hafter⟩ :=
    splitlines_between hlead htrail hcrLead hsolid hne
  rw [← hrecord] at hlines
  have hnone : ∀ lines : List PyStr, (∀ l ∈ lines, Blank l) →
      lines.filterMap (fun l => parseSyslogLine p now l (some now)) = [] := by
    intro lines hblank
    rw [List.filterMap_eq_nil_iff]
    exact fun l hl => parseSyslogLine_blank (hblank l hl)
  have hline : parseSyslogLine p now (gap ++ (strip record ++ gap')) (some now) = some ev := by
    rw [← hparse]
    exact parseSyslogLine_congr (strip_between hgap hgap' record)
  rw [lineEvents, hlines, List.filterMap_append, List.filterMap_cons, hline, hnone before hbefore,
    hnone after hafter]
  rfl

/-- No line of a text has a boundary inside. -/
theorem not_isLineBreak_raw {now : Timestamp} {ev : TelemetryEvent}
    (h : ev ∈ lineEvents p now record) : ∀ c ∈ ev.raw, isLineBreak c = false := by
  obtain ⟨line, hline, hparse⟩ := List.mem_filterMap.mp h
  have hraw := (parseSyslogLine_some hparse).1
  obtain ⟨lead, trail, hstrip, -, -⟩ := exists_strip line
  intro c hc
  refine not_isLineBreak_of_mem_splitlines hline (fun c hc => by cases hc) c ?_
  rw [hstrip]
  exact List.mem_append_right _ (List.mem_append_left _ (hraw ▸ hc))

/-- The delivery adds one event, that of the record up to its time. -/
def AddsOne (p : Platform) (clock : Nat → Timestamp) (c : Collector) (d : Delivery)
    (ev : TelemetryEvent) : Prop :=
  ∃ ev', c.receive p clock d = c.tick.addEvent ev' ∧ { ev' with timestamp := ev.timestamp } = ev

variable {clock} {c : Collector} {d : Delivery} {now : Timestamp} {recvTime : Option Timestamp}
  {ev : TelemetryEvent}

theorem addsOne_of_solid (hparse : parseSyslogLine p now record recvTime = some ev)
    (hlf : '\n' ∉ record) (hcr : '\r' ∉ record) (hd : d.Carries record)
    (hsolid : ∀ ch ∈ strip record, isLineBreak ch = false) : AddsOne p clock c d ev := by
  have hnow := (parseSyslogLine_some hparse).2.2 (clock c.reads) (some (clock c.reads))
  refine ⟨{ ev with timestamp := clock c.reads }, ?_, rfl⟩
  · rw [receive_eq_ingest p clock hlf hd, ingest_eq, decodeUtf8_encodeUtf8,
      lineEvents_of_solid hnow hcr hsolid]
    rfl

/-- A boundary inside the record takes its event away: no line has the raw text. -/
theorem solid_of_addsOne (hparse : parseSyslogLine p now record recvTime = some ev)
    (hlf : '\n' ∉ record) (hd : d.Carries record) (h : AddsOne p clock c d ev) :
    ∀ ch ∈ strip record, isLineBreak ch = false := by
  obtain ⟨ev', hreceive, hev⟩ := h
  rw [receive_eq_ingest p clock hlf hd, ingest_eq, decodeUtf8_encodeUtf8] at hreceive
  have hevents := foldl_eq_addEvent hreceive
  have hmem : ev' ∈ lineEvents p (clock c.reads) record := by
    rw [hevents]
    exact List.mem_singleton_self ev'
  have hraw : ev'.raw = strip record := by
    rw [← (parseSyslogLine_some hparse).1, ← hev]
  rw [← hraw]
  exact not_isLineBreak_raw hmem

/-- One frame is one record if and only if the record, stripped, has no boundary of
`splitlines` inside. -/
theorem one_frame_one_record (hparse : parseSyslogLine p now record recvTime = some ev)
    (hlf : '\n' ∉ record) (hcr : '\r' ∉ record) (hd : d.Carries record) :
    AddsOne p clock c d ev ↔ ∀ ch ∈ strip record, isLineBreak ch = false :=
  ⟨solid_of_addsOne hparse hlf hd, addsOne_of_solid hparse hlf hcr hd⟩

/-! ## A record that is one line, and one that is not -/

/-- A platform without rounding or case, that accepts every address. -/
def plainPlatform : Platform := ⟨fun q => q, fun s => s, fun _ => true⟩

/-- A stopped clock. -/
def stopped : Nat → Timestamp := fun _ => .finite 0

def emptyCollector : Collector := ⟨2, Nat.two_pos, .empty, 0, 0⟩

/-- The record as a line of a connection, in one chunk. -/
def asLine (r : Record) : Delivery := .tcp [.chunk (encodeUtf8 r.encode ++ [lineFeed])]

theorem asLine_carries (r : Record) : (asLine r).Carries r.encode := by
  show (encodeUtf8 r.encode ++ [lineFeed]) ++ [] = _
  rw [List.append_nil]

theorem one_frame_one_record_sessionCreate :
    AddsOne plainPlatform stopped emptyCollector (asLine Record.sessionCreate)
      { eventType := "RT_FLOW_SESSION_CREATE".toList
        fiveTuple := fiveTupleOf plainPlatform Record.sessionCreate.fields
        timestamp := .nonfinite
        fields := Record.sessionCreate.fields.mapValues .str
        raw := strip Record.sessionCreate.encode } := by
  have hparse := Record.sessionCreate.parse_encode plainPlatform .nonfinite none
  refine (one_frame_one_record hparse (by decide) (by decide)
    (asLine_carries _)).mpr ?_
  have hall : (strip Record.sessionCreate.encode).all (fun c => !isLineBreak c) = true := by
    decide
  intro c hc
  simpa using List.all_eq_true.mp hall c hc

/-- A message with a line separator and a legacy tag behind it. -/
def forged : Record :=
  Record.sessionCreate.withMsg
    (some ('x' :: Char.ofNat 0x2028 :: "RT_FLOW_SESSION_CLOSE:".toList)) <| by
      intro text htext
      cases htext
      decide

/-- The frame of that record adds two events, and not the record's own. -/
theorem one_frame_two_records :
    '\n' ∉ forged.encode ∧ '\r' ∉ forged.encode ∧ (asLine forged).Carries forged.encode ∧
      (lineEvents plainPlatform (.finite 0) forged.encode).length = 2 ∧
      ∃ ev, parseSyslogLine plainPlatform .nonfinite forged.encode none = some ev ∧
        ¬ AddsOne plainPlatform stopped emptyCollector (asLine forged) ev := by
  have hlf : '\n' ∉ forged.encode := by decide
  refine ⟨hlf, by decide, asLine_carries _, by decide, _,
    forged.parse_encode plainPlatform .nonfinite none, ?_⟩
  intro h
  have hparse := forged.parse_encode plainPlatform .nonfinite none
  have hsolid := solid_of_addsOne hparse hlf (asLine_carries _) h (Char.ofNat 0x2028)
    (by decide)
  revert hsolid
  decide

end frame

end Collector

end SrxProbe.Collectors
