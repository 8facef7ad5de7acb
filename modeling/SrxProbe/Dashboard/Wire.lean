import SrxProbe.Dashboard.Run
import SrxProbe.Lib.Json
import SrxProbe.Lib.Sse

/-!
# The event stream on the wire

The bytes that the stream handler writes, and what a client that reads them as
server-sent events makes of them. A log line goes out in JSON, on one line whatever it
has in it, so it stays inside its frame: the client has the events that were written and
no others.
-/

namespace SrxProbe.Dashboard

open SrxProbe.Lib

/-- `event[1]`. -/
def EventData.kind : EventData → PyStr
  | .log _ => "log".toList
  | .end _ => "end".toList
  | .reset _ => "reset".toList

/-- A write of the stream handler behind its preamble. -/
inductive Write
  | frame (event : Event)
  | keepalive
  deriving DecidableEq, Repr

/-- The event of a frame. -/
def Write.event? : Write → Option Event
  | .frame event => some event
  | .keepalive => none

/-- What `q.get(timeout=15)` comes back with: an item, or `queue.Empty`. -/
inductive Got
  | item (item : Option Event)
  | empty
  deriving DecidableEq, Repr

/-- The loop of the stream handler, over what it gets. -/
def streamLoop : List Got → List Write
  | [] => []
  | .empty :: gets => .keepalive :: streamLoop gets
  | .item none :: _ => []
  | .item (some event) :: gets =>
      .frame event :: if event.data.kind = "end".toList then [] else streamLoop gets

/-- The writes of `do_GET` to a subscriber. -/
def streamWrites (backlog : List Event) (done : Bool) (gets : List Got) : List Write :=
  backlog.map .frame ++ if done then [] else streamLoop gets

/-- The events of the items got, up to the marker for a slow consumer or the first `end`. -/
def served : List Got → List Event
  | [] => []
  | .empty :: gets => served gets
  | .item none :: _ => []
  | .item (some event) :: gets => if event.isEnd then [event] else event :: served gets

/-- An event as the page has it: the last event id, the event's name, and its parsed data. -/
structure Received (D : Type) where
  id : PyStr
  event : PyStr
  data : D

/-- `JSON.parse(ev.data)` in a listener of the page. -/
def receive {D : Type} (loads : PyStr → Option D) (m : Sse.Message) : Option (Received D) :=
  (loads m.data).map fun data => ⟨m.id, m.event, data⟩

section

-- `value` is the data of an event as a Python object, which `json.dumps` is given.
variable {D : Type} (value : EventData → D) (dumps : D → PyStr)

/-- `sse_frame`, before `encode`. -/
def frameText (event : Event) : PyStr :=
  "id: ".toList ++ intText event.id ++ "\nevent: ".toList ++ event.data.kind ++
    "\ndata: ".toList ++ dumps (value event.data) ++ "\n\n".toList

def sseFrame (event : Event) : Bytes := encodeUtf8 (frameText value dumps event)

def Write.bytes : Write → Bytes
  | .frame event => sseFrame value dumps event
  | .keepalive => encodeUtf8 ": keepalive\n\n".toList

/-- The body of the response. -/
def streamBytes (writes : List Write) : Bytes :=
  encodeUtf8 "retry: 2000\n\n".toList ++ writes.flatMap (Write.bytes value dumps)

/-- An event as the page should have it. -/
def Event.received (event : Event) : Received D :=
  ⟨intText event.id, event.data.kind, value event.data⟩

/-! ## Lines -/

def Write.lines : Write → List PyStr
  | .frame event =>
      ["id: ".toList ++ intText event.id, "event: ".toList ++ event.data.kind,
        "data: ".toList ++ dumps (value event.data), []]
  | .keepalive => [": keepalive".toList, []]

def streamLines (writes : List Write) : List PyStr :=
  ["retry: 2000".toList, []] ++ writes.flatMap (Write.lines value dumps)

theorem encodeUtf8_append (s t : PyStr) : encodeUtf8 (s ++ t) = encodeUtf8 s ++ encodeUtf8 t :=
  List.flatMap_append

theorem bytes_eq (write : Write) :
    write.bytes value dumps = encodeUtf8 (unlines (write.lines value dumps)) := by
  cases write with
  | frame event =>
      have htext : frameText value dumps event =
          unlines (Write.lines value dumps (.frame event)) := by
        have hevent : "\nevent: ".toList = '\n' :: "event: ".toList := by decide
        have hdata : "\ndata: ".toList = '\n' :: "data: ".toList := by decide
        have hend : "\n\n".toList = ['\n', '\n'] := by decide
        show "id: ".toList ++ intText event.id ++ "\nevent: ".toList ++ event.data.kind ++
          "\ndata: ".toList ++ dumps (value event.data) ++ "\n\n".toList = _
        rw [Write.lines, hevent, hdata, hend]
        simp only [unlines_cons, unlines_nil, List.append_assoc, List.cons_append,
          List.nil_append]
      exact congrArg encodeUtf8 htext
  | keepalive =>
      have htext : ": keepalive\n\n".toList = unlines [": keepalive".toList, []] := by decide
      exact congrArg encodeUtf8 htext

theorem streamBytes_eq (writes : List Write) :
    streamBytes value dumps writes = encodeUtf8 (unlines (streamLines value dumps writes)) := by
  have hwrites : writes.flatMap (Write.bytes value dumps) =
      encodeUtf8 (unlines (writes.flatMap (Write.lines value dumps))) := by
    induction writes with
    | nil => rfl
    | cons write writes ih =>
        rw [List.flatMap_cons, List.flatMap_cons, unlines_append, encodeUtf8_append, ih, bytes_eq]
  rw [streamBytes, hwrites, streamLines, unlines_append, encodeUtf8_append]
  rfl

theorem intText_plain (n : Nat) : ∀ c ∈ intText n, isDecimal c = true := by
  intro c hc
  rw [show intText n = Nat.toDigits 10 n from if_neg (by omega)] at hc
  exact isDecimal_of_mem_toDigits hc

theorem kind_plain (data : EventData) :
    (∀ c ∈ data.kind, isNewline c = false) ∧ data.kind ≠ [] := by
  have hnames : ∀ name ∈ ["log".toList, "end".toList, "reset".toList],
      name.all (!isNewline ·) = true ∧ name ≠ [] := by decide
  have hkind := hnames data.kind (by cases data <;> simp [EventData.kind])
  exact ⟨solid_of_all hkind.1, hkind.2⟩

/-- No line of a write has a line ending in it, whatever the event carries. -/
theorem lines_solid {dumps : D → PyStr} (hline : ∀ d, '\n' ∉ dumps d ∧ '\r' ∉ dumps d)
    (write : Write) : ∀ line ∈ write.lines value dumps, ∀ c ∈ line, isNewline c = false := by
  have hdigit : ∀ c, isDecimal c = true → isNewline c = false := by
    intro c hc
    have hn : c ≠ '\n' := by rintro rfl; cases hc
    have hr : c ≠ '\r' := by rintro rfl; cases hc
    simp [isNewline, hn, hr]
  have hdumps : ∀ d, ∀ c ∈ dumps d, isNewline c = false := by
    intro d c hc
    have hn : c ≠ '\n' := fun h => (hline d).1 (h ▸ hc)
    have hr : c ≠ '\r' := fun h => (hline d).2 (h ▸ hc)
    simp [isNewline, hn, hr]
  cases write with
  | keepalive =>
      have hlines : ∀ line ∈ [": keepalive".toList, []], line.all (!isNewline ·) = true := by
        decide
      exact fun line hl => solid_of_all (hlines line hl)
  | frame event =>
      have hid := fun c hc => hdigit c (intText_plain event.id c hc)
      have hkind := (kind_plain event.data).1
      simp only [Write.lines, List.forall_mem_cons, List.forall_mem_append]
      exact ⟨⟨solid_of_all (by decide), hid⟩, ⟨solid_of_all (by decide), hkind⟩,
        ⟨solid_of_all (by decide), hdumps _⟩, by simp, by simp⟩

theorem streamLines_solid {dumps : D → PyStr} (hline : ∀ d, '\n' ∉ dumps d ∧ '\r' ∉ dumps d)
    (writes : List Write) :
    ∀ line ∈ streamLines value dumps writes, ∀ c ∈ line, isNewline c = false := by
  have hpreamble : ∀ line ∈ ["retry: 2000".toList, []], line.all (!isNewline ·) = true := by
    decide
  simp only [streamLines, List.forall_mem_append]
  refine ⟨fun line hl => solid_of_all (hpreamble line hl), fun line hl => ?_⟩
  obtain ⟨write, -, hmem⟩ := List.mem_flatMap.mp hl
  exact lines_solid value hline write line hmem

/-! ## Reading -/

/-- The frame of an event as it is dispatched, before its data is parsed. -/
def Event.message (event : Event) : Sse.Message :=
  ⟨intText event.id, event.data.kind, dumps (value event.data)⟩

/-- The events of a list of writes. -/
def events (writes : List Write) : List Event := writes.filterMap Write.event?

/-- The id a client that was at `id` ends at. -/
def idAfter (id : PyStr) (sent : List Event) : PyStr :=
  sent.foldl (fun _ event => intText event.id) id

/-- One write. -/
theorem lines_write {r : Sse.Reader} (hrest : r.AtRest) (write : Write) :
    r.lines (write.lines value dumps) =
      ({ r with id := idAfter r.id write.event?.toList },
        write.event?.toList.map (Event.message value dumps)) := by
  cases write with
  | frame event =>
      have hid : Char.ofNat 0 ∉ intText event.id := by
        intro h
        cases intText_plain event.id _ h
      exact Sse.Reader.lines_event hrest hid (kind_plain event.data).2 _
  | keepalive => exact Sse.Reader.lines_comment hrest " keepalive".toList

/-- Any number of writes. A reader is at rest in front of each. -/
theorem lines_writes {r : Sse.Reader} (hrest : r.AtRest) (writes : List Write) :
    r.lines (writes.flatMap (Write.lines value dumps)) =
      ({ r with id := idAfter r.id (events writes) },
        (events writes).map (Event.message value dumps)) := by
  induction writes generalizing r with
  | nil => rfl
  | cons write writes ih =>
      have hafter : Sse.Reader.AtRest { r with id := idAfter r.id write.event?.toList } :=
        ⟨hrest.event, hrest.data⟩
      have hevents : events (write :: writes) = write.event?.toList ++ events writes := by
        cases write <;> rfl
      rw [List.flatMap_cons, Sse.Reader.lines_append, lines_write value dumps hrest, ih hafter,
        hevents, List.map_append]
      show ({ r with id := _ }, _) = ({ r with id := _ }, _)
      rw [idAfter, idAfter, idAfter, List.foldl_append]

/-- The preamble sets the reconnection time and dispatches nothing. -/
theorem lines_preamble : Sse.Reader.fresh.lines ["retry: 2000".toList, []] =
    ({ Sse.Reader.fresh with retry := some 2000 }, []) :=
  Sse.Reader.atRest_fresh.lines_retry (by decide)

/-- **What a client reads**, for any writes: the frames, in order, and the id of the last. -/
theorem read_streamBytes {dumps : D → PyStr} (hline : ∀ d, '\n' ∉ dumps d ∧ '\r' ∉ dumps d)
    (writes : List Write) :
    Sse.read (streamBytes value dumps writes) =
      (⟨idAfter [] (events writes), [], [], some 2000⟩,
        (events writes).map (Event.message value dumps)) := by
  have hmark : (unlines (streamLines value dumps writes)).head? ≠ some (Char.ofNat 0xFEFF) := by
    rw [streamLines, unlines_append]
    show some 'r' ≠ _
    decide
  have hrest : Sse.Reader.AtRest { Sse.Reader.fresh with retry := some 2000 } := ⟨rfl, rfl⟩
  rw [streamBytes_eq, Sse.read_unlines (streamLines_solid value hline writes) hmark, streamLines,
    Sse.Reader.lines_append, lines_preamble, lines_writes value dumps hrest]
  rfl

/-- A connection that breaks (`except OSError`), wherever it does, leaves the page with the
first of the events. -/
theorem torn_stream {dumps : D → PyStr} (hline : ∀ d, '\n' ∉ dumps d ∧ '\r' ∉ dumps d)
    {writes : List Write} {sent : Bytes} (h : sent <+: streamBytes value dumps writes) :
    Sse.messages sent <+: (events writes).map (Event.message value dumps) := by
  have hwhole := Sse.prefix_messages h
  rwa [Sse.messages, Sse.messages, read_streamBytes value hline] at hwhole

/-- The page has the event's own data back. -/
theorem receive_message {dumps : D → PyStr} {loads : PyStr → Option D}
    (hloads : ∀ d, loads (dumps d) = some d) (event : Event) :
    receive loads (event.message value dumps) = some (event.received value) := by
  simp [receive, Event.message, Event.received, hloads]

theorem intText_inj {m n : Nat} (h : intText m = intText n) : m = n := by
  have htext : ∀ k : Nat, intText k = Nat.toDigits 10 k := fun k => if_neg (by omega)
  have hvalue := congrArg (Nat.ofDigitChars 10 · 0) h
  simpa only [htext, Nat.ofDigitChars_ten_toDigits] using hvalue

/-- Nothing of an event is lost: its id, whether it is an `end`, and its data. -/
theorem received_inj {event other : Event} (h : event.received value = other.received value) :
    event.id = other.id ∧ event.data.kind = other.data.kind ∧
      value event.data = value other.data := by
  injection h with hid hkind hdata
  exact ⟨intText_inj hid, hkind, hdata⟩

end

theorem kind_end (event : Event) : event.data.kind = "end".toList ↔ event.isEnd = true := by
  obtain ⟨id, data⟩ := event
  cases data with
  | log line =>
      have hne : "log".toList ≠ "end".toList := by decide
      exact ⟨fun h => absurd h hne, fun h => absurd h Bool.false_ne_true⟩
  | «end» payload => exact ⟨fun _ => rfl, fun _ => rfl⟩
  | reset note =>
      have hne : "reset".toList ≠ "end".toList := by decide
      exact ⟨fun h => absurd h hne, fun h => absurd h Bool.false_ne_true⟩

/-- The loop writes a frame for each event it serves. -/
theorem events_streamLoop (gets : List Got) : events (streamLoop gets) = served gets := by
  induction gets with
  | nil => rfl
  | cons got gets ih =>
      cases got with
      | empty => exact ih
      | item item =>
          cases item with
          | none => rfl
          | some event =>
              rw [streamLoop, served]
              by_cases hend : event.isEnd = true
              · rw [if_pos ((kind_end event).mpr hend), if_pos hend]
                rfl
              · rw [if_neg (mt (kind_end event).mp hend), if_neg hend, ← ih]
                rfl

theorem events_append (writes more : List Write) :
    events (writes ++ more) = events writes ++ events more := List.filterMap_append

theorem events_backlog (backlog : List Event) : events (backlog.map .frame) = backlog := by
  induction backlog with
  | nil => rfl
  | cons event backlog ih => exact congrArg (event :: ·) ih

theorem events_streamWrites (backlog : List Event) (done : Bool) (gets : List Got) :
    events (streamWrites backlog done gets) =
      backlog ++ if done then [] else served gets := by
  rw [streamWrites, events_append, events_backlog]
  cases done with
  | true => rfl
  | false => exact congrArg (backlog ++ ·) (events_streamLoop gets)

/-- **The stream is unambiguous on the wire.** Whatever the events carry and wherever the
keepalives stand, the page has exactly the events that were written, in order, each with
its id, name and data; so it has of a handler's stream the backlog and what the loop
served. -/
theorem stream_unambiguous {D : Type} (value : EventData → D) (dumps : D → PyStr)
    (loads : PyStr → Option D) (hline : ∀ d, '\n' ∉ dumps d ∧ '\r' ∉ dumps d)
    (hloads : ∀ d, loads (dumps d) = some d) :
    (∀ writes, (Sse.messages (streamBytes value dumps writes)).map (receive loads) =
      (events writes).map fun event => some (event.received value)) ∧
    (∀ backlog done gets,
      (Sse.messages (streamBytes value dumps (streamWrites backlog done gets))).map
          (receive loads) =
        (backlog ++ if done then [] else served gets).map fun event =>
          some (event.received value)) ∧
    ∀ event other : Event, event.received value = other.received value →
      event.id = other.id ∧ event.data.kind = other.data.kind ∧
        value event.data = value other.data := by
  have hall : ∀ writes, (Sse.messages (streamBytes value dumps writes)).map (receive loads) =
      (events writes).map fun event => some (event.received value) := by
    intro writes
    rw [Sse.messages, read_streamBytes value hline, List.map_map]
    exact List.map_congr_left fun event _ => receive_message value hloads event
  refine ⟨hall, ?_, fun event other => received_inj value⟩
  intro backlog done gets
  rw [hall, events_streamWrites]

/-- The string a `log` or a `reset` event carries. -/
def EventData.shown : EventData → PyStr
  | .log line => line
  | .reset note => note
  | .end _ => []

/-- A log line that looks like the end of its frame and an `end` event. -/
theorem stream_unambiguous_forged :
    (Sse.messages (streamBytes EventData.shown Json.dumpsStr
      [.frame ⟨7, .log "\r\n\nid: 9\nevent: end\ndata: \"\"\n\n".toList⟩, .keepalive])).map
        (receive Json.loadsStr) =
      [some ⟨"7".toList, "log".toList, "\r\n\nid: 9\nevent: end\ndata: \"\"\n\n".toList⟩] :=
  (stream_unambiguous EventData.shown Json.dumpsStr Json.loadsStr Json.dumpsStr_line
    Json.loadsStr_dumpsStr).1 _

end SrxProbe.Dashboard
