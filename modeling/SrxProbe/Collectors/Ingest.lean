import SrxProbe.Collectors.Decode
import SrxProbe.Lib.Ring
import SrxProbe.Lib.Utf8

/-!
# Receiving syslog

The receive loops of the collector: a datagram is ingested whole, a TCP stream
line by line, however it is cut into chunks. Ingesting decodes the bytes, splits
the text into lines and buffers the event of every line that has one.
-/

namespace SrxProbe.Collectors

open SrxProbe.Lib SrxProbe.Validation

/-- A collector: its buffer, the events it evicted, and how often it read the clock. -/
structure Collector where
  maxEvents : Nat
  positive : 0 < maxEvents
  events : Ring TelemetryEvent maxEvents
  droppedEvents : Nat
  reads : Nat

/-- `max_events` has to be positive. -/
def Collector.new (maxEvents : Int) : Except PyErr Collector :=
  if h : 0 < maxEvents then
    .ok ⟨maxEvents.toNat, Int.lt_toNat.mpr h, .empty, 0, 0⟩
  else .error (.valueError "max_events must be positive".toList)

namespace Collector

/-- `add_event`. -/
def addEvent (c : Collector) (event : TelemetryEvent) : Collector :=
  { c with
    events := c.events.push event
    droppedEvents :=
      if c.events.items.length = c.maxEvents then c.droppedEvents + 1 else c.droppedEvents }

/-- The clock is read once more. -/
def tick (c : Collector) : Collector := { c with reads := c.reads + 1 }

section receive

variable (p : Platform) (clock : Nat → Timestamp)

/-- `_ingest`; `clock n` is what the reading number `n` of the clock gives. -/
def ingest (c : Collector) (data : Bytes) : Collector :=
  let recvTime := clock c.reads
  (splitlines (decodeUtf8 data)).foldl
    (fun c rawLine =>
      match parseSyslogLine p recvTime rawLine (some recvTime) with
      | some event => c.addEvent event
      | none => c)
    c.tick

/-! ## UDP -/

/-- A datagram; IPv4 leaves 65507 bytes for the payload. -/
structure Datagram where
  payload : Bytes
  bounded : payload.length ≤ 65507

/-- One turn of `_run_udp`: `recvfrom(65535)`. -/
def receiveDatagram (c : Collector) (d : Datagram) : Collector :=
  c.ingest p clock (d.payload.take 65535)

/-! ## TCP -/

def lineFeed : UInt8 := 10

/-- What `recv` gives a connection that goes on. -/
inductive Recv
  | chunk (data : Bytes)
  | timeout

def Recv.data : Recv → Bytes
  | .chunk data => data
  | .timeout => []

/-- The loop over the complete lines of `buf`: what is left of it, and the collector.
Every turn takes a byte, so the length of `buf` is fuel enough. -/
def ingestLines : Nat → Bytes → Collector → Bytes × Collector
  | 0, buf, c => (buf, c)
  | n + 1, buf, c =>
      if lineFeed ∈ buf then
        let rawLine := buf.takeWhile (· ≠ lineFeed)
        ingestLines n (buf.dropWhile (· ≠ lineFeed)).tail (c.ingest p clock rawLine)
      else (buf, c)

/-- One turn of the loop over `conn.recv`. -/
def receiveChunk (s : Bytes × Collector) (r : Recv) : Bytes × Collector :=
  match r with
  | .timeout => s
  | .chunk chunk => ingestLines p clock (s.1 ++ chunk).length (s.1 ++ chunk) s.2

/-- A connection, from its `accept` to the end of what it receives. -/
def serveConnection (c : Collector) (recvs : List Recv) : Collector :=
  (recvs.foldl (receiveChunk p clock) ([], c)).2

/-! ## Deliveries -/

/-- A frame on its way to the collector. -/
inductive Delivery
  | udp (d : Datagram)
  | tcp (recvs : List Recv)

def receive (c : Collector) : Delivery → Collector
  | .udp d => c.receiveDatagram p clock d
  | .tcp recvs => c.serveConnection p clock recvs

end receive

/-- The delivery carries the record, as a datagram or as a line of its own. -/
def Delivery.Carries (record : PyStr) : Delivery → Prop
  | .udp d => d.payload = encodeUtf8 record
  | .tcp recvs => recvs.flatMap Recv.data = encodeUtf8 record ++ [lineFeed]

/-! ## Framing -/

/-- A byte in front of a stream: it belongs to the first line, or to the tail. -/
def consByte (b : UInt8) : List Bytes × Bytes → List Bytes × Bytes
  | ([], tail) => ([], b :: tail)
  | (line :: lines, tail) => ((b :: line) :: lines, tail)

/-- The complete lines of a stream, and what follows the last line feed. -/
def splitFrames : Bytes → List Bytes × Bytes
  | [] => ([], [])
  | b :: rest =>
      if b = lineFeed then ([] :: (splitFrames rest).1, (splitFrames rest).2)
      else consByte b (splitFrames rest)

theorem splitFrames_lineFeed (rest : Bytes) :
    splitFrames (lineFeed :: rest) = ([] :: (splitFrames rest).1, (splitFrames rest).2) := by
  rw [splitFrames, if_pos rfl]

theorem splitFrames_of_ne {b : UInt8} (hb : b ≠ lineFeed) (rest : Bytes) :
    splitFrames (b :: rest) = consByte b (splitFrames rest) := by
  rw [splitFrames, if_neg hb]

theorem splitFrames_of_not_mem {buf : Bytes} (h : lineFeed ∉ buf) :
    splitFrames buf = ([], buf) := by
  induction buf with
  | nil => rfl
  | cons b buf ih =>
      rw [List.mem_cons, not_or] at h
      rw [splitFrames_of_ne (Ne.symm h.1), ih h.2]
      rfl

theorem splitFrames_line {line : Bytes} (h : lineFeed ∉ line) (rest : Bytes) :
    splitFrames (line ++ lineFeed :: rest) =
      (line :: (splitFrames rest).1, (splitFrames rest).2) := by
  induction line with
  | nil => exact splitFrames_lineFeed rest
  | cons b line ih =>
      rw [List.mem_cons, not_or] at h
      rw [List.cons_append, splitFrames_of_ne (Ne.symm h.1), ih h.2]
      rfl

/-- Cutting a stream in two does not change its lines. -/
theorem splitFrames_append (x y : Bytes) :
    splitFrames (x ++ y) =
      ((splitFrames x).1 ++ (splitFrames ((splitFrames x).2 ++ y)).1,
        (splitFrames ((splitFrames x).2 ++ y)).2) := by
  induction x with
  | nil => rfl
  | cons b x ih =>
      rw [List.cons_append]
      by_cases hb : b = lineFeed
      · subst hb
        rw [splitFrames_lineFeed, splitFrames_lineFeed, ih]
        rfl
      · rw [splitFrames_of_ne hb, splitFrames_of_ne hb, ih]
        obtain ⟨lines, tail⟩ := splitFrames x
        cases lines with
        | nil =>
            show consByte b (splitFrames (tail ++ y)) =
              ((splitFrames (b :: (tail ++ y))).1, (splitFrames (b :: (tail ++ y))).2)
            rw [splitFrames_of_ne hb]
        | cons line lines => rfl

theorem lineFeed_not_mem_tail (x : Bytes) : lineFeed ∉ (splitFrames x).2 := by
  induction x with
  | nil => exact List.not_mem_nil
  | cons b x ih =>
      by_cases hb : b = lineFeed
      · subst hb
        rw [splitFrames_lineFeed]
        exact ih
      · rw [splitFrames_of_ne hb]
        revert ih
        obtain ⟨lines, tail⟩ := splitFrames x
        intro ih
        cases lines with
        | nil =>
            intro h
            rcases List.mem_cons.mp h with h | h
            · exact hb h.symm
            · exact ih h
        | cons line lines => exact ih

section framing

variable (p : Platform) (clock : Nat → Timestamp)

/-- The loop over a buffer ingests its complete lines in order. -/
theorem ingestLines_eq {n : Nat} {buf : Bytes} (hn : buf.length ≤ n) (c : Collector) :
    ingestLines p clock n buf c =
      ((splitFrames buf).2, (splitFrames buf).1.foldl (ingest p clock) c) := by
  induction n generalizing buf c with
  | zero =>
      rw [List.length_eq_zero_iff.mp (Nat.le_zero.mp hn)]
      rfl
  | succ n ih =>
      by_cases hmem : lineFeed ∈ buf
      · have hline : lineFeed ∉ buf.takeWhile (· ≠ lineFeed) := by
          intro h
          simpa using List.mem_takeWhile_imp h
        obtain ⟨rest, hrest⟩ : ∃ rest, buf.dropWhile (· ≠ lineFeed) = lineFeed :: rest := by
          cases hdrop : buf.dropWhile (· ≠ lineFeed) with
          | nil => exact absurd rfl (of_decide_eq_true (List.dropWhile_eq_nil_iff.mp hdrop _ hmem))
          | cons b rest =>
              have hnot := List.head?_dropWhile_not (· ≠ lineFeed) buf
              rw [hdrop] at hnot
              exact ⟨rest, by simpa using hnot⟩
        have hbuf : buf = buf.takeWhile (· ≠ lineFeed) ++ lineFeed :: rest := by
          rw [← hrest, List.takeWhile_append_dropWhile]
        have hlen : rest.length ≤ n := by
          have h := congrArg List.length hbuf
          rw [List.length_append, List.length_cons] at h
          omega
        rw [ingestLines, if_pos hmem]
        dsimp only
        rw [hrest, List.tail_cons, ih hlen]
        conv => rhs; rw [hbuf, splitFrames_line hline]
        rfl
      · rw [ingestLines, if_neg hmem, splitFrames_of_not_mem hmem]
        rfl

/-- However a stream is cut into chunks, its lines are ingested one by one. -/
theorem fold_receiveChunk {buf : Bytes} (h : lineFeed ∉ buf) (recvs : List Recv) (c : Collector) :
    recvs.foldl (receiveChunk p clock) (buf, c) =
      ((splitFrames (buf ++ recvs.flatMap Recv.data)).2,
        (splitFrames (buf ++ recvs.flatMap Recv.data)).1.foldl (ingest p clock) c) := by
  induction recvs generalizing buf c with
  | nil =>
      rw [List.flatMap_nil, List.append_nil, splitFrames_of_not_mem h]
      rfl
  | cons r recvs ih =>
      have hstep : receiveChunk p clock (buf, c) r =
          ((splitFrames (buf ++ r.data)).2,
            (splitFrames (buf ++ r.data)).1.foldl (ingest p clock) c) := by
        cases r with
        | timeout =>
            rw [Recv.data, List.append_nil, splitFrames_of_not_mem h]
            rfl
        | chunk data => exact ingestLines_eq p clock (Nat.le_refl _) c
      rw [List.foldl_cons, hstep, ih (lineFeed_not_mem_tail _), List.flatMap_cons,
        ← List.append_assoc, splitFrames_append (buf ++ r.data), List.foldl_append]

theorem serveConnection_eq (recvs : List Recv) (c : Collector) :
    c.serveConnection p clock recvs =
      (splitFrames (recvs.flatMap Recv.data)).1.foldl (ingest p clock) c := by
  rw [serveConnection, fold_receiveChunk p clock List.not_mem_nil]
  rfl

/-- Either way, the collector ingests the record once. -/
theorem receive_eq_ingest {record : PyStr} (hlf : '\n' ∉ record) {d : Delivery}
    (hd : d.Carries record) (c : Collector) :
    c.receive p clock d = c.ingest p clock (encodeUtf8 record) := by
  cases d with
  | udp d =>
      show c.ingest p clock (d.payload.take 65535) = _
      have hbound := d.bounded
      rw [List.take_of_length_le (by omega)]
      exact congrArg _ hd
  | tcp recvs =>
      have hline : lineFeed ∉ encodeUtf8 record :=
        fun hmem => hlf (mem_of_mem_encodeUtf8 (by decide) hmem)
      have hdata : recvs.flatMap Recv.data = encodeUtf8 record ++ lineFeed :: [] := hd
      show c.serveConnection p clock recvs = _
      rw [serveConnection_eq, hdata, splitFrames_line hline]
      rfl

end framing

end Collector

end SrxProbe.Collectors
