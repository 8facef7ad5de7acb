import SrxProbe.Collectors.Buffer
import SrxProbe.Lib.TSys

/-!
# The receiving thread

The collector at work: its thread takes datagrams, or the lines of one connection after the
other, and parses the lines of a frame one by one, while other threads clear the buffer at
any point between. What the buffer holds is what was received, whatever the chunks.
-/

namespace SrxProbe.Collectors

open SrxProbe.Lib SrxProbe.Validation

/-- A line with the time its frame was received at. -/
abbrev Stamped := Timestamp × PyStr

/-- The event of a stamped line. -/
def eventOf (p : Platform) (line : Stamped) : Option TelemetryEvent :=
  parseSyslogLine p line.1 line.2 (some line.1)

/-- The lines of a stamped frame. -/
def frameLines (frame : Timestamp × Bytes) : List Stamped :=
  (splitlines (decodeUtf8 frame.2)).map (frame.1, ·)

/-- The socket the collector listens on. -/
inductive Transport
  | udp
  | tcp
  deriving DecidableEq, Repr

/-- What was received since the last clear. No step reads it. -/
structure Trace where
  /-- the bytes of the open connection: those that the clear found in the buffer of the
  connection, and all that came since -/
  stream : Bytes
  /-- the frames taken of them -/
  taken : List Bytes
  /-- all frames taken -/
  frames : List (Timestamp × Bytes)
  /-- the lines of a frame that the clear came in between of -/
  cut : List Stamped
  /-- the lines that are parsed -/
  lines : List Stamped

/-- A collector with its receiving thread. -/
structure Reception where
  collector : Collector
  /-- `buf` of the open connection -/
  buf : Bytes
  recvTime : Timestamp
  /-- the lines of the frame in `_ingest` that are not parsed yet -/
  lines : List PyStr
  trace : Trace

inductive ReceptionAct
  /-- `recvfrom` returns a datagram -/
  | datagram (d : Collector.Datagram)
  /-- `accept` returns a connection; the one before is at its end -/
  | accept
  /-- `recv` returns a chunk -/
  | recv (chunk : Bytes)
  /-- the next frame is split off `buf` -/
  | frame
  /-- the next line of the frame is parsed -/
  | line
  /-- another thread clears the buffer -/
  | clear

namespace Reception

/-- The thread is not in `_ingest`. -/
def Idle (s : Reception) : Prop := s.lines = []

instance (s : Reception) : Decidable s.Idle := inferInstanceAs (Decidable (s.lines = []))

section step

variable (transport : Transport) (p : Platform) (clock : Nat → Timestamp)

/-- `_ingest`, up to its loop. -/
def begin (s : Reception) (data : Bytes) : Reception :=
  let recvTime := clock s.collector.reads
  { s with
    collector := s.collector.tick
    recvTime := recvTime
    lines := splitlines (decodeUtf8 data)
    trace := { s.trace with frames := s.trace.frames ++ [(recvTime, data)] } }

/-- A turn of the loop of `_ingest`, on one of its lines. -/
def parse (s : Reception) (line : PyStr) (lines : List PyStr) : Reception :=
  { s with
    collector :=
      match eventOf p (s.recvTime, line) with
      | some event => s.collector.addEvent event
      | none => s.collector
    lines := lines
    trace := { s.trace with lines := s.trace.lines ++ [(s.recvTime, line)] } }

/-- The collector's buffer is cleared. -/
def clear (s : Reception) : Reception :=
  { s with
    collector := s.collector.clear
    trace :=
      { stream := s.buf
        taken := []
        frames := []
        cut := s.lines.map (s.recvTime, ·)
        lines := [] } }

def step (s : Reception) : ReceptionAct → Option Reception
  | .datagram d =>
      if transport = .udp ∧ s.Idle then some (s.begin clock (d.payload.take 65535)) else none
  | .accept =>
      if transport = .tcp ∧ s.Idle ∧ Collector.lineFeed ∉ s.buf then
        some { s with buf := [], trace := { s.trace with stream := [], taken := [] } }
      else none
  | .recv chunk =>
      if transport = .tcp ∧ s.Idle ∧ Collector.lineFeed ∉ s.buf then
        some { s with
          buf := s.buf ++ chunk
          trace := { s.trace with stream := s.trace.stream ++ chunk } }
      else none
  | .frame =>
      if transport = .tcp ∧ s.Idle ∧ Collector.lineFeed ∈ s.buf then
        let rawLine := s.buf.takeWhile (· ≠ Collector.lineFeed)
        let s := s.begin clock rawLine
        some { s with
          buf := (s.buf.dropWhile (· ≠ Collector.lineFeed)).tail
          trace := { s.trace with taken := s.trace.taken ++ [rawLine] } }
      else none
  | .line =>
      match s.lines with
      | [] => none
      | line :: lines => some (s.parse p line lines)
  | .clear => some s.clear

/-- A collector just made, before its thread has received anything. -/
def Initial (s : Reception) : Prop :=
  s.collector.events.items = [] ∧ s.buf = [] ∧ s.lines = [] ∧ s.trace = ⟨[], [], [], [], []⟩

def system : TSys Reception ReceptionAct := .ofFn Initial (step transport p clock)

end step

/-! ## A frame is ingested -/

section ingest

variable {transport : Transport} {p : Platform} {clock : Nat → Timestamp}

/-- The lines of a frame, one after the other. -/
def parseAll (p : Platform) (s : Reception) : Reception :=
  s.lines.foldl (fun s line => s.parse p line s.lines.tail) s

theorem collector_parseAll (s : Reception) : (s.parseAll p).collector =
    (s.lines.filterMap fun line => eventOf p (s.recvTime, line)).foldl Collector.addEvent
      s.collector := by
  unfold parseAll
  generalize hlines : s.lines = lines
  clear hlines
  induction lines generalizing s with
  | nil => rfl
  | cons line lines ih =>
      rw [List.foldl_cons, ih]
      show List.foldl _ (match eventOf p (s.recvTime, line) with
        | some event => s.collector.addEvent event
        | none => s.collector) (List.filterMap _ lines) = _
      rw [List.filterMap_cons]
      cases eventOf p (s.recvTime, line) <;> rfl

/-- Without a clear in between, a frame and its lines are a call of `_ingest`. -/
theorem collector_begin_parseAll (s : Reception) (data : Bytes) :
    ((s.begin clock data).parseAll p).collector = s.collector.ingest p clock data := by
  rw [collector_parseAll, Collector.ingest_eq]
  rfl

end ingest

/-! ## The invariant -/

section

variable (transport : Transport) (p : Platform)

structure Inv (s : Reception) : Prop where
  /-- without connections no frame is of one -/
  udp : transport = .udp → s.trace.taken = []
  /-- the buffer is the end of the events of the lines -/
  buffer : s.collector.events.Holds (s.trace.lines.filterMap (eventOf p))
  /-- the lines are those of the frames, in order -/
  lines : s.trace.lines ++ s.lines.map (s.recvTime, ·) =
    s.trace.cut ++ s.trace.frames.flatMap frameLines
  /-- the frames of the connection are the last ones -/
  frames : s.trace.taken <:+ s.trace.frames.map Prod.snd
  /-- and they are the lines of its stream, but for what is in its buffer -/
  stream : Collector.splitFrames s.trace.stream =
    (s.trace.taken ++ (Collector.splitFrames s.buf).1, (Collector.splitFrames s.buf).2)

variable {transport p} {clock : Nat → Timestamp} {s s' : Reception}

/-- A stream up to its first line feed. -/
theorem split_lineFeed {buf : Bytes} (h : Collector.lineFeed ∈ buf) :
    Collector.splitFrames buf =
      (buf.takeWhile (· ≠ Collector.lineFeed) ::
          (Collector.splitFrames (buf.dropWhile (· ≠ Collector.lineFeed)).tail).1,
        (Collector.splitFrames (buf.dropWhile (· ≠ Collector.lineFeed)).tail).2) := by
  have hline : Collector.lineFeed ∉ buf.takeWhile (· ≠ Collector.lineFeed) := by
    intro hmem
    simpa using List.mem_takeWhile_imp hmem
  have hne : buf.dropWhile (· ≠ Collector.lineFeed) ≠ [] := by
    intro hnil
    exact absurd rfl (of_decide_eq_true (List.dropWhile_eq_nil_iff.mp hnil _ h))
  obtain ⟨b, rest, hdrop⟩ := List.exists_cons_of_ne_nil hne
  have hb : b = Collector.lineFeed := by
    have hhead := List.head?_dropWhile_not (· ≠ Collector.lineFeed) buf
    rw [hdrop] at hhead
    simpa using hhead
  have hbuf : buf = buf.takeWhile (· ≠ Collector.lineFeed) ++ Collector.lineFeed :: rest := by
    rw [← hb, ← hdrop, hb, List.takeWhile_append_dropWhile]
  rw [hdrop, List.tail_cons]
  conv => lhs; rw [hbuf]
  exact Collector.splitFrames_line hline rest

/-- A frame is taken. -/
theorem Inv.begin (h : s.Inv transport p) (hidle : s.Idle) (data : Bytes) :
    (s.begin clock data).trace.lines ++
        (s.begin clock data).lines.map ((s.begin clock data).recvTime, ·) =
      (s.begin clock data).trace.cut ++ (s.begin clock data).trace.frames.flatMap frameLines := by
  have hlines := h.lines
  rw [hidle, List.map_nil, List.append_nil] at hlines
  show s.trace.lines ++ _ = s.trace.cut ++ (s.trace.frames ++ [(_, data)]).flatMap frameLines
  rw [List.flatMap_append, List.flatMap_singleton, ← List.append_assoc, ← hlines]
  rfl

theorem Inv.frame (h : s.Inv transport p)
    (hstep : s.step transport p clock .frame = some s') : s'.Inv transport p := by
  simp only [step] at hstep
  split at hstep
  · rename_i hguard
    obtain ⟨htcp, hidle, hfeed⟩ := hguard
    cases hstep
    have hstream := h.stream
    rw [split_lineFeed hfeed] at hstream
    refine ⟨?_, h.buffer, h.begin hidle _, ?_, ?_⟩
    · intro hudp
      rw [htcp] at hudp
      cases hudp
    · show s.trace.taken ++ [_] <:+ (s.trace.frames ++ [(_, _)]).map Prod.snd
      rw [List.map_append]
      obtain ⟨before, hbefore⟩ := h.frames
      exact ⟨before, by rw [← hbefore, List.append_assoc]; rfl⟩
    · show Collector.splitFrames s.trace.stream = _
      rw [hstream]
      simp only [Reception.begin, List.append_assoc, List.cons_append, List.nil_append]
  · cases hstep

theorem Inv.parse (h : s.Inv transport p) {line : PyStr} {lines : List PyStr}
    (hlines : s.lines = line :: lines) : (s.parse p line lines).Inv transport p where
  buffer := by
    show Ring.Holds _ ((s.trace.lines ++ [(s.recvTime, line)]).filterMap (eventOf p))
    rw [List.filterMap_append, List.filterMap_cons]
    unfold Reception.parse
    cases hevent : eventOf p (s.recvTime, line) with
    | none =>
        rw [List.filterMap_nil, List.append_nil]
        exact h.buffer
    | some event => exact h.buffer.push event
  lines := by
    have hall := h.lines
    rw [hlines] at hall
    show (s.trace.lines ++ [(s.recvTime, line)]) ++ lines.map (s.recvTime, ·) = _
    rw [List.append_assoc]
    exact hall
  frames := h.frames
  stream := h.stream
  udp := h.udp

theorem Inv.clear (s : Reception) : s.clear.Inv transport p where
  udp := fun _ => rfl
  buffer := Ring.Holds.empty
  lines := by
    show [] ++ s.lines.map (s.recvTime, ·) = s.lines.map (s.recvTime, ·) ++ [].flatMap frameLines
    rw [List.nil_append, List.flatMap_nil, List.append_nil]
  frames := List.nil_suffix
  stream := rfl

theorem Inv.step {act : ReceptionAct} (h : s.Inv transport p)
    (hstep : s.step transport p clock act = some s') : s'.Inv transport p := by
  cases act with
  | datagram d =>
      simp only [Reception.step] at hstep
      split at hstep
      · rename_i hguard
        cases hstep
        have htaken := h.udp hguard.1
        refine ⟨h.udp, h.buffer, h.begin hguard.2 _, ?_, h.stream⟩
        show s.trace.taken <:+ _
        rw [htaken]
        exact List.nil_suffix
      · cases hstep
  | accept =>
      simp only [Reception.step] at hstep
      split at hstep
      · cases hstep
        exact ⟨fun _ => rfl, h.buffer, h.lines, List.nil_suffix, rfl⟩
      · cases hstep
  | recv chunk =>
      simp only [Reception.step] at hstep
      split at hstep
      · rename_i hguard
        cases hstep
        refine ⟨h.udp, h.buffer, h.lines, h.frames, ?_⟩
        have hstream := h.stream
        rw [Collector.splitFrames_of_not_mem hguard.2.2, List.append_nil] at hstream
        show Collector.splitFrames (s.trace.stream ++ chunk) = _
        rw [Collector.splitFrames_append, hstream]
      · cases hstep
  | frame => exact h.frame hstep
  | line =>
      simp only [Reception.step] at hstep
      split at hstep
      · cases hstep
      · rename_i line lines hlines
        cases hstep
        exact h.parse hlines
  | clear =>
      cases hstep
      exact .clear s

theorem inv_invariant (transport : Transport) (p : Platform) (clock : Nat → Timestamp) :
    (system transport p clock).Invariant (Reception.Inv transport p) := by
  refine TSys.Inductive.invariant ⟨?_, fun s act s' h hstep => Inv.step h hstep⟩
  rintro s ⟨hevents, hbuf, hlines, htrace⟩
  refine ⟨?_, ?_, ?_, ?_, ?_⟩
  · intro _
    rw [htrace]
  · rw [htrace]
    show s.collector.events.items = List.rtake [] _
    rw [hevents, List.rtake_nil]
  · rw [htrace, hlines]
    rfl
  · rw [htrace]
    exact List.nil_suffix
  · rw [htrace, hbuf]
    rfl

/-! ## What is kept -/

/-- The line was parsed since the last clear, and the lines after it have fewer events than the
buffer has room for. -/
def Kept (p : Platform) (s : Reception) (line : Stamped) : Prop :=
  ∃ before after, s.trace.lines = before ++ line :: after ∧
    (after.filterMap (eventOf p)).length < s.collector.maxEvents

/-- The buffer has the events of the lines that are kept. -/
theorem Inv.mem_snapshot_iff (h : s.Inv transport p) {ev : TelemetryEvent} :
    ev ∈ s.collector.snapshot ↔ ∃ line, s.Kept p line ∧ eventOf p line = some ev := by
  have hholds := h.buffer
  unfold Collector.snapshot
  rw [hholds, Ring.mem_rtake_iff]
  constructor
  · rintro ⟨before, after, hevents, hroom⟩
    obtain ⟨left, right, hlines, -, hright⟩ := List.filterMap_eq_append_iff.mp hevents
    obtain ⟨skipped, line, rest, hsplit, hskipped, hev, hrest⟩ :=
      List.filterMap_eq_cons_iff.mp hright
    refine ⟨line, ⟨left ++ skipped, rest, ?_, ?_⟩, hev⟩
    · rw [hlines, hsplit, List.append_assoc]
    · rw [hrest]
      exact hroom
  · rintro ⟨line, ⟨before, after, hlines, hroom⟩, hev⟩
    refine ⟨before.filterMap (eventOf p), after.filterMap (eventOf p), ?_, hroom⟩
    rw [hlines, List.filterMap_append, List.filterMap_cons, hev]

end

end Reception

end SrxProbe.Collectors
