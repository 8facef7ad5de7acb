import SrxProbe.Collectors.OneRecord

/-!
# Framing by line feeds

A TCP stream is ingested line by line, as its chunks come in. What it leaves in the
buffer is what the datagram of its complete lines would leave, up to the times: a line
feed cuts the bytes, the text and the lines at one place.
-/

namespace SrxProbe.Collectors.Collector

open SrxProbe.Lib SrxProbe.Validation

/-! ## Up to the times -/

/-- An event without its time. -/
def contents (ev : TelemetryEvent) : TelemetryEvent := { ev with timestamp := .nonfinite }

/-- Two collectors hold the same events in the same order, up to the times, and have
evicted as many. -/
structure Same (c c' : Collector) : Prop where
  maxEvents : c.maxEvents = c'.maxEvents
  events : c.events.items.map contents = c'.events.items.map contents
  droppedEvents : c.droppedEvents = c'.droppedEvents

theorem Same.refl (c : Collector) : c.Same c := ⟨rfl, rfl, rfl⟩

theorem map_rtake {α β : Type} (f : α → β) (l : List α) (n : Nat) :
    (l.rtake n).map f = (l.map f).rtake n := by
  unfold List.rtake
  rw [List.map_drop, List.length_map]

theorem Same.addEvent {c c' : Collector} (h : c.Same c') {ev ev' : TelemetryEvent}
    (hev : contents ev = contents ev') : (c.addEvent ev).Same (c'.addEvent ev') := by
  have hlen : c.events.items.length = c'.events.items.length := by
    rw [← List.length_map (f := contents), h.events, List.length_map]
  refine ⟨h.maxEvents, ?_, ?_⟩
  · show ((c.events.items ++ [ev]).rtake c.maxEvents).map contents =
      ((c'.events.items ++ [ev']).rtake c'.maxEvents).map contents
    rw [map_rtake, map_rtake, List.map_append, List.map_append, h.events, h.maxEvents,
      List.map_singleton, List.map_singleton, hev]
  · show (if c.events.items.length = c.maxEvents then c.droppedEvents + 1 else c.droppedEvents) =
      if c'.events.items.length = c'.maxEvents then c'.droppedEvents + 1 else c'.droppedEvents
    rw [hlen, h.maxEvents, h.droppedEvents]

theorem Same.foldl {c c' : Collector} (h : c.Same c') {evs evs' : List TelemetryEvent}
    (hevs : evs.map contents = evs'.map contents) :
    (evs.foldl Collector.addEvent c).Same (evs'.foldl Collector.addEvent c') := by
  induction evs generalizing evs' c c' with
  | nil =>
      rw [List.map_nil, eq_comm, List.map_eq_nil_iff] at hevs
      subst hevs
      exact h
  | cons ev evs ih =>
      cases evs' with
      | nil => cases hevs
      | cons ev' evs' =>
          rw [List.map_cons, List.map_cons] at hevs
          obtain ⟨hev, hrest⟩ := List.cons.inj hevs
          exact ih (h.addEvent hev) hrest

/-! ## Lines -/

section lines

variable (p : Platform)

/-- The events of a text do not depend on the clock, but for their times. -/
theorem lineEvents_contents (now now' : Timestamp) (text : PyStr) :
    (lineEvents p now text).map contents = (lineEvents p now' text).map contents := by
  have hline : ∀ line, (parseSyslogLine p now line (some now)).map contents =
      (parseSyslogLine p now' line (some now')).map contents := by
    intro line
    unfold parseSyslogLine
    dsimp only
    split
    · rfl
    · cases lineText (strip line) <;> rfl
  unfold lineEvents
  rw [List.map_filterMap, List.map_filterMap]
  exact congrArg (fun f => (splitlines text).filterMap f) (funext hline)

/-- A line feed cuts the events of a text in two. -/
theorem lineEvents_lineFeed (now : Timestamp) (text rest : PyStr) :
    lineEvents p now (text ++ '\n' :: rest) = lineEvents p now text ++ lineEvents p now rest := by
  obtain ⟨blanks, hlines, hblanks⟩ := splitlinesFrom_lineFeed [] text rest
  have hnone : blanks.filterMap (fun l => parseSyslogLine p now l (some now)) = [] := by
    rw [List.filterMap_eq_nil_iff]
    intro l hl
    rw [hblanks l hl]
    apply parseSyslogLine_blank
    intro c hc
    cases hc
  unfold lineEvents splitlines
  rw [hlines, List.filterMap_append, List.filterMap_append, hnone, List.append_nil]

/-! ## Frames -/

/-- The longest beginning of a stream that ends in a line feed. -/
def completeLines (data : Bytes) : Bytes := data.rdropWhile (· ≠ lineFeed)

/-- The lines joined again. -/
def joinFrames (frames : List Bytes) : Bytes := frames.flatMap (· ++ [lineFeed])

theorem splitFrames_join (data : Bytes) :
    data = joinFrames (splitFrames data).1 ++ (splitFrames data).2 := by
  induction data with
  | nil => rfl
  | cons b rest ih =>
      by_cases hb : b = lineFeed
      · subst hb
        rw [splitFrames_lineFeed]
        exact congrArg (lineFeed :: ·) ih
      · rw [splitFrames_of_ne hb]
        cases hsplit : splitFrames rest with
        | mk frames tail =>
            rw [hsplit] at ih
            cases frames with
            | nil => exact congrArg (b :: ·) ih
            | cons frame frames => exact congrArg (b :: ·) ih

theorem completeLines_eq (data : Bytes) :
    completeLines data = joinFrames (splitFrames data).1 := by
  have htail : ∀ b ∈ (splitFrames data).2, decide (b ≠ lineFeed) = true := by
    intro b hb
    rw [decide_eq_true_eq]
    rintro rfl
    exact lineFeed_not_mem_tail data hb
  have hjoined : (joinFrames (splitFrames data).1).rdropWhile (· ≠ lineFeed) =
      joinFrames (splitFrames data).1 := by
    cases hframes : (splitFrames data).1.reverse with
    | nil =>
        rw [List.reverse_eq_nil_iff.mp hframes]
        rfl
    | cons frame frames =>
        rw [List.reverse_eq_cons_iff.mp hframes]
        unfold joinFrames
        rw [List.flatMap_append, List.flatMap_singleton, ← List.append_assoc,
          List.rdropWhile_concat_neg _ _ _ (by simp)]
  unfold completeLines
  conv => lhs; rw [splitFrames_join data]
  rw [List.rdropWhile, List.reverse_append,
    List.dropWhile_append_of_pos fun b hb => htail b (List.mem_reverse.mp hb)]
  exact hjoined

/-- The events of the lines of a stream, one frame after the other. -/
theorem lineEvents_joinFrames (now : Timestamp) (frames : List Bytes) :
    lineEvents p now (decodeUtf8 (joinFrames frames)) =
      frames.flatMap fun frame => lineEvents p now (decodeUtf8 frame) := by
  have hfeed : lineFeed.toNat < 0x80 := by decide
  induction frames with
  | nil => rfl
  | cons frame frames ih =>
      have hjoin : joinFrames (frame :: frames) = frame ++ lineFeed :: joinFrames frames := by
        unfold joinFrames
        rw [List.flatMap_cons, List.append_assoc]
        rfl
      rw [hjoin, decodeUtf8_append_ascii hfeed, List.flatMap_cons, ← ih]
      exact lineEvents_lineFeed p now _ _

/-- Ingesting the frames of a stream one by one adds their events. -/
theorem foldl_ingest (clock : Nat → Timestamp) (now : Timestamp) (frames : List Bytes)
    {c c' : Collector} (h : c.Same c') :
    (frames.foldl (ingest p clock) c).Same
      ((frames.flatMap fun frame => lineEvents p now (decodeUtf8 frame)).foldl addEvent c') := by
  induction frames generalizing c c' with
  | nil => exact h
  | cons frame frames ih =>
      rw [List.foldl_cons, List.flatMap_cons, List.foldl_append]
      apply ih
      rw [ingest_eq]
      have htick : c.tick.Same c' := ⟨h.maxEvents, h.events, h.droppedEvents⟩
      exact htick.foldl (lineEvents_contents p _ _ _)

/-- **A stream leaves what the datagram of its complete lines leaves**, however it is
cut, whatever the clocks, and nothing if it has no complete line. -/
theorem serveConnection_same (clock clock' : Nat → Timestamp) (c : Collector)
    (recvs : List Recv) :
    (c.serveConnection p clock recvs).Same
      (if lineFeed ∈ recvs.flatMap Recv.data then
        c.ingest p clock' (completeLines (recvs.flatMap Recv.data))
      else c) := by
  have hdatagram := ingest_eq p clock' c (completeLines (recvs.flatMap Recv.data))
  have hframes := foldl_ingest p clock (clock' c.reads)
    (splitFrames (recvs.flatMap Recv.data)).1 (Same.refl c)
  rw [serveConnection_eq]
  split
  · rw [hdatagram, completeLines_eq, lineEvents_joinFrames]
    have htick : c.Same c.tick := ⟨rfl, rfl, rfl⟩
    have hadded := htick.foldl (rfl : ((splitFrames (recvs.flatMap Recv.data)).1.flatMap
      fun frame => lineEvents p (clock' c.reads) (decodeUtf8 frame)).map contents = _)
    exact ⟨hframes.maxEvents.trans hadded.maxEvents, hframes.events.trans hadded.events,
      hframes.droppedEvents.trans hadded.droppedEvents⟩
  · rename_i hnone
    rw [splitFrames_of_not_mem hnone]
    exact Same.refl c

end lines

end SrxProbe.Collectors.Collector
