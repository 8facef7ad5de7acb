import SrxProbe.Collectors.Reception
import SrxProbe.Generators.Traffic
import SrxProbe.Validation.Addresses

/-!
# From the traffic to the verdict

A generator causes traffic and returns a stimulus; the device logs the traffic, the collector
receives the log and the correlator judges the stimulus by the collector's buffer. What the
verdict says is what was received, and traffic that is logged truly is found.
-/

namespace SrxProbe.Validation

open SrxProbe.Lib SrxProbe.Collectors SrxProbe.Generators

/-! ## Telemetry -/

/-- What the telemetry of a collector stands for, at any point of a run. -/
structure TelemetryExact (transport : Transport) (p : Platform) (s : Reception) : Prop where
  /-- the buffer is the end of the events of the lines that were parsed, in order -/
  buffer : s.collector.snapshot =
    (s.trace.lines.filterMap (eventOf p)).rtake s.collector.maxEvents
  /-- those and the ones to come are the lines of the frames -/
  lines : s.trace.lines ++ s.lines.map (s.recvTime, ·) =
    s.trace.cut ++ s.trace.frames.flatMap frameLines
  /-- the frames of a connection are the lines of its bytes, whatever the chunks -/
  stream : s.trace.taken <:+ s.trace.frames.map Prod.snd ∧
    Collector.splitFrames s.trace.stream =
      (s.trace.taken ++ (Collector.splitFrames s.buf).1, (Collector.splitFrames s.buf).2)
  /-- the verdict says that a stimulus is logged exactly when a line that is kept has an event
  for it -/
  logged : ∀ (c : Correlator) (stimulus : Stimulus) (groundTruth : Option (Iterable FiveTuple)),
    (c.evaluate p stimulus (.ofList s.collector.snapshot) groundTruth).verdict.logged = .yes ↔
      ∃ line ev, s.Kept p line ∧ eventOf p line = some ev ∧ Satisfies p c stimulus ev

section telemetry

variable {p : Platform} {c : Correlator} {stimulus : Stimulus}
  {events : Iterable TelemetryEvent} {groundTruth : Option (Iterable FiveTuple)}

theorem logged_yes_iff : (c.evaluate p stimulus events groundTruth).verdict.logged = .yes ↔
    ∃ ev ∈ events.items, Satisfies p c stimulus ev := by
  rcases logged_eq p c stimulus events groundTruth with ⟨hlogged, h⟩ | ⟨hlogged, h, -⟩ |
    ⟨hlogged, h, -⟩
  · simp [hlogged, h]
  · simp [hlogged, h]
  · simp [hlogged, h]

theorem detected_yes_iff : (c.evaluate p stimulus events groundTruth).verdict.detected = .yes ↔
    Observed p c stimulus events.items (groundTruth.map Iterable.items) := by
  rcases detected_eq p c stimulus events groundTruth with ⟨hdetected, h⟩ | ⟨hdetected, h⟩
  · simp [hdetected, h]
  · simp [hdetected, h]

/-- **The telemetry is what was received**, in every interleaving of the receiving thread with
those that clear the buffer. -/
theorem telemetry_exact (transport : Transport) (p : Platform) (clock : Nat → Timestamp) :
    (Reception.system transport p clock).Invariant (TelemetryExact transport p) := by
  intro s hreach
  have hinv := Reception.inv_invariant transport p clock s hreach
  refine ⟨hinv.buffer, hinv.lines, ⟨hinv.frames, hinv.stream⟩, ?_⟩
  intro c stimulus groundTruth
  rw [logged_yes_iff]
  show (∃ ev ∈ s.collector.snapshot, _) ↔ _
  constructor
  · rintro ⟨ev, hmem, hsat⟩
    obtain ⟨line, hkept, hev⟩ := hinv.mem_snapshot_iff.mp hmem
    exact ⟨line, ev, hkept, hev, hsat⟩
  · rintro ⟨line, ev, hkept, hev, hsat⟩
    exact ⟨ev, hinv.mem_snapshot_iff.mpr ⟨line, hkept, hev⟩, hsat⟩

end telemetry

/-! ## Logs of a flow -/

/-- The record says nothing false about the flow, and states an address of it. -/
structure Logs (r : Record) (f : Flow) : Prop where
  srcIp : ∀ value ∈ first r.fields srcIpKeys, value = Pcap.addressText f.ip.src
  dstIp : ∀ value ∈ first r.fields dstIpKeys, value = Pcap.addressText f.ip.dst
  address : first r.fields srcIpKeys ≠ none ∨ first r.fields dstIpKeys ≠ none
  protocol : ∀ value ∈ first r.fields protoKeys, value = intText f.ip.proto.toNat
  srcPort : ∀ value ∈ first r.fields srcPortKeys, ∀ ports ∈ f.ports,
    value = Pcap.portText ports.sport
  dstPort : ∀ value ∈ first r.fields dstPortKeys, ∀ ports ∈ f.ports,
    value = Pcap.portText ports.dport

/-- The packet carries the flow: its ports may be in another fragment. -/
structure Carries (pkt : Pcap.Packet) (f : Flow) : Prop where
  ip : pkt.ip = f.ip
  ports : ∀ ports ∈ Pcap.tsharkPorts pkt, f.ports = some ports

section logs

variable {p : Platform} {t : FiveTuple} {f : Flow} {r : Record}

theorem ipAddress_addressText (address : UInt32) :
    p.reading.ipAddress (Pcap.addressText address) = true := by
  show (Lib.ipAddress (Pcap.addressText address)).isSome = true
  have hparse := IpAddress.parseV4_str address.toNat
  unfold Lib.ipAddress Pcap.addressText
  rw [hparse]
  rfl

/-- A port that is stated is that of the flow. -/
theorem port_of_stated {stated : Option PyStr} {port : UInt16} {n : Int}
    (h : ∀ value ∈ stated, value = Pcap.portText port) (hn : n ∈ toInt stated) :
    n = port.toNat := by
  obtain ⟨value, hvalue, hparse⟩ := Option.bind_eq_some_iff.mp hn
  rw [h value hvalue, Pcap.portText, Pcap.parseInt_small port.toNat_lt] at hparse
  exact (Option.some.inj hparse).symm

/-- The tuple of a true record is compatible with whatever describes the flow. -/
theorem matches_of_logs (hdesc : Describes t f) (hlogs : Logs r f) :
    observationMatches p.reading t (fiveTupleOf p.reading r.fields) = true := by
  refine observationMatches_iff.mpr ⟨⟨hlogs.address, ?_, ?_⟩, ?_, ?_, ?_, ?_, ?_⟩
  · intro a ha
    rw [hlogs.srcIp a ha]
    exact ipAddress_addressText _
  · intro a ha
    rw [hlogs.dstIp a ha]
    exact ipAddress_addressText _
  · intro a ha b hb
    rw [hdesc.srcIp a ha, hlogs.srcIp b hb]
  · intro a ha b hb
    rw [hdesc.dstIp a ha, hlogs.dstIp b hb]
  · intro a ha b hb
    obtain ⟨raw, hraw, rfl⟩ := Option.mem_map.mp hb
    have hname : protoNum.lookup raw = some a := by
      rw [hlogs.protocol raw hraw]
      exact hdesc.protocol a ha
    rw [hname]
    rfl
  · intro a ha b hb
    obtain ⟨ports, hports, rfl⟩ := hdesc.srcPort a ha
    exact (port_of_stated (fun value hvalue => hlogs.srcPort value hvalue ports hports) hb).symm
  · intro a ha b hb
    obtain ⟨ports, hports, rfl⟩ := hdesc.dstPort a ha
    exact (port_of_stated (fun value hvalue => hlogs.dstPort value hvalue ports hports) hb).symm

/-- The tuple of a captured packet is, too. -/
theorem matches_of_carries {pkt : Pcap.Packet} (hdesc : Describes t f) (hpkt : Carries pkt f) :
    observationMatches p.reading t (Pcap.tupleOf pkt.ip
      (Pcap.protocolOf (intText pkt.ip.proto.toNat)) (Pcap.tsharkPorts pkt)) = true := by
  rw [hpkt.ip]
  refine observationMatches_iff.mpr ⟨⟨.inl (Option.some_ne_none _), ?_, ?_⟩, ?_, ?_, ?_, ?_, ?_⟩
  · intro a ha
    cases ha
    exact ipAddress_addressText _
  · intro a ha
    cases ha
    exact ipAddress_addressText _
  · intro a ha b hb
    cases hb
    exact hdesc.srcIp a ha
  · intro a ha b hb
    cases hb
    exact hdesc.dstIp a ha
  · intro a ha b hb
    cases hb
    have hname := hdesc.protocol a ha
    unfold Pcap.protocolOf
    rw [hname]
    rfl
  · intro a ha b hb
    obtain ⟨ports, hports, rfl⟩ := hdesc.srcPort a ha
    obtain ⟨seen, hseen, rfl⟩ := Option.mem_map.mp hb
    rw [Option.some.inj (hports.symm.trans (hpkt.ports seen hseen))]
  · intro a ha b hb
    obtain ⟨ports, hports, rfl⟩ := hdesc.dstPort a ha
    obtain ⟨seen, hseen, rfl⟩ := Option.mem_map.mp hb
    rw [Option.some.inj (hports.symm.trans (hpkt.ports seen hseen))]

end logs

/-! ## Traffic that is logged is found -/

/-- The log was received at that time and is parsed, and the lines behind it leave it in the
buffer. It may be followed by white space, such as the end of its line. -/
structure Received (p : Platform) (s : Reception) (r : Record) (recvTime : Timestamp) : Prop where
  idle : s.Idle
  solid : ∀ ch ∈ strip r.encode, isLineBreak ch = false
  frame : ∃ before trail after, Blank trail ∧
    s.trace.frames = before ++ (recvTime, encodeUtf8 (r.encode ++ trail)) :: after ∧
      ((after.flatMap frameLines).filterMap (eventOf p)).length < s.collector.maxEvents

/-- What the verdict says of traffic that was logged. -/
structure Found (p : Platform) (c : Correlator) (stimulus : Stimulus) (f : Flow)
    (snapshot : List TelemetryEvent) : Prop where
  /-- it is logged, whatever was captured -/
  logged : ∀ groundTruth,
    (c.evaluate p stimulus (.ofList snapshot) groundTruth).verdict.logged = .yes
  /-- without a capture it counts as observed unless a capture is required -/
  detected : (c.evaluate p stimulus (.ofList snapshot) none).verdict.detected = .yes ↔
    c.requireGroundTruth = false
  /-- with a packet of it in the capture it does, whatever is required -/
  captured : ∀ (capture : List Pcap.Packet), (∃ pkt ∈ capture, Carries pkt f) →
    (c.evaluate p stimulus (.ofList snapshot)
      (some (.ofList (Pcap.extractWithTshark (Pcap.tsharkOutput capture))))).verdict.detected = .yes

section found

variable {p : Platform} {c : Correlator} {stimulus : Stimulus} {f : Flow} {r : Record}
  {transport : Transport} {clock : Nat → Timestamp} {s : Reception} {recvTime : Timestamp}

/-- The event of a record that is received. -/
def eventFor (p : Platform) (recvTime : Timestamp) (r : Record) : TelemetryEvent where
  eventType := r.msgid
  fiveTuple := fiveTupleOf p r.fields
  timestamp := recvTime
  fields := r.fields.mapValues .str
  raw := strip r.encode

/-- A frame with a record has the event of the record and no other. -/
theorem events_of_record {trail : PyStr} (htrail : Blank trail)
    (hsolid : ∀ ch ∈ strip r.encode, isLineBreak ch = false) :
    (frameLines (recvTime, encodeUtf8 (r.encode ++ trail))).filterMap (eventOf p) =
      [eventFor p recvTime r] := by
  have hparse := r.parse_encode p recvTime (some recvTime)
  obtain ⟨lead, rest, hrecord, hlead, hrest⟩ := exists_strip r.encode
  have hne : strip r.encode ≠ [] := (parseSyslogLine_some hparse).2.1
  -- a record starts with its priority
  have hnil : lead = [] := by
    cases lead with
    | nil => rfl
    | cons ch lead =>
        have hhead : r.encode.head? = some '<' := rfl
        rw [hrecord] at hhead
        obtain rfl := Option.some.inj hhead
        exact absurd (hlead '<' List.mem_cons_self) (by decide)
  subst hnil
  have htext : r.encode ++ trail = [] ++ (strip r.encode ++ (rest ++ trail)) := by
    conv => lhs; rw [hrecord]
    rw [List.nil_append, List.nil_append, List.append_assoc]
  obtain ⟨before, gap, gap', after, hlines, hgap, hgap', hbefore, hafter⟩ :=
    splitlines_between hlead (hrest.append htrail) List.not_mem_nil hsolid hne
  have hnone : ∀ lines : List PyStr, (∀ l ∈ lines, Blank l) →
      (lines.map (recvTime, ·)).filterMap (eventOf p) = [] := by
    intro lines hblank
    rw [List.filterMap_map, List.filterMap_eq_nil_iff]
    exact fun l hl => parseSyslogLine_blank (hblank l hl)
  have hline : eventOf p (recvTime, gap ++ (strip r.encode ++ gap')) =
      some (eventFor p recvTime r) := by
    show parseSyslogLine p recvTime (gap ++ (strip r.encode ++ gap')) (some recvTime) = _
    rw [parseSyslogLine_congr (strip_between hgap hgap' r.encode)]
    exact hparse
  unfold frameLines
  rw [decodeUtf8_encodeUtf8, htext, hlines, List.map_append, List.map_cons, List.filterMap_append,
    List.filterMap_cons, hline, hnone before hbefore, hnone after hafter]
  rfl

/-- A log that is received is kept. -/
theorem Received.mem_snapshot (h : Received p s r recvTime) (hinv : s.Inv transport p) :
    eventFor p recvTime r ∈ s.collector.snapshot := by
  obtain ⟨before, trail, after, htrail, hframes, hroom⟩ := h.frame
  have hlines := hinv.lines
  rw [h.idle, List.map_nil, List.append_nil, hframes, List.flatMap_append, List.flatMap_cons]
    at hlines
  obtain ⟨left, line, right, hsplit, -, hev, hright⟩ :
      ∃ left line right, frameLines (recvTime, encodeUtf8 (r.encode ++ trail)) =
        left ++ line :: right ∧ left.filterMap (eventOf p) = [] ∧
          eventOf p line = some (eventFor p recvTime r) ∧ right.filterMap (eventOf p) = [] := by
    obtain ⟨left, line, right, hsplit, hleft, hev, hright⟩ :=
      List.filterMap_eq_cons_iff.mp (events_of_record htrail h.solid)
    exact ⟨left, line, right, hsplit, List.filterMap_eq_nil_iff.mpr hleft, hev, hright⟩
  refine hinv.mem_snapshot_iff.mpr ⟨line, ⟨s.trace.cut ++ before.flatMap frameLines ++ left,
    right ++ after.flatMap frameLines, ?_, ?_⟩, hev⟩
  · rw [hlines, hsplit]
    simp only [List.append_assoc, List.cons_append]
  · rw [List.filterMap_append, hright, List.nil_append]
    exact hroom

/-- The receiving thread gets to the end of a frame. -/
theorem exists_idle (h : (Reception.system transport p clock).Reachable s) :
    ∃ s', (Reception.system transport p clock).Reachable s' ∧ s'.Idle ∧
      s'.trace.frames = s.trace.frames ∧ s'.collector.maxEvents = s.collector.maxEvents := by
  generalize hlines : s.lines = lines
  induction lines generalizing s with
  | nil => exact ⟨s, h, hlines, rfl, rfl⟩
  | cons line lines ih =>
      have hstep : s.step transport p clock .line = some (s.parse p line lines) := by
        simp [Reception.step, hlines]
      obtain ⟨s', hreach, hidle, hframes, hmax⟩ := ih (h.step hstep) rfl
      refine ⟨s', hreach, hidle, hframes, hmax.trans ?_⟩
      unfold Reception.parse
      split <;> rfl

/-- A log in a datagram can be received in every state between two datagrams. -/
theorem exists_received (h : (Reception.system .udp p clock).Reachable s) (hidle : s.Idle)
    (hsolid : ∀ ch ∈ strip r.encode, isLineBreak ch = false)
    (hlen : (encodeUtf8 r.encode).length ≤ 65507) :
    ∃ s', (Reception.system .udp p clock).Reachable s' ∧
      Received p s' r (clock s.collector.reads) := by
  have hstep : s.step .udp p clock (.datagram ⟨encodeUtf8 r.encode, hlen⟩) =
      some (s.begin clock (encodeUtf8 r.encode)) := by
    simp only [Reception.step]
    rw [if_pos ⟨trivial, hidle⟩, List.take_of_length_le (by omega)]
  obtain ⟨s', hreach, hidle', hframes, hmax⟩ := exists_idle (h.step hstep)
  refine ⟨s', hreach, hidle', hsolid, s.trace.frames, [], [],
    fun ch hch => absurd hch List.not_mem_nil, ?_, ?_⟩
  · rw [hframes, List.append_nil]
    rfl
  · exact s'.collector.positive

/-- The log of a connection attempt. -/
def synLog : Record :=
  { Record.sessionCreate with
    elements :=
      [{  id := "junos@2636.1.1.1.2.129".toList
          params :=
            [{  name := "source-address".toList
                value := "192.0.2.1".toList
                name_nonempty := by decide
                name_chars := List.all_eq_true.mp (by decide)
                value_line := by decide },
              { name := "destination-port".toList
                value := "443".toList
                name_nonempty := by decide
                name_chars := List.all_eq_true.mp (by decide)
                value_line := by decide },
              { name := "protocol-id".toList
                value := "6".toList
                name_nonempty := by decide
                name_chars := List.all_eq_true.mp (by decide)
                value_line := by decide }]
          id_nonempty := by decide
          id_chars := List.all_eq_true.mp (by decide) }]
    elements_nonempty := by simp }

/-- The flow of it. -/
def synFlow : Flow := ⟨⟨0xC0000201, 0xC0000202, 6⟩, some ⟨20000, 443⟩⟩

theorem synLog_logs : Logs synLog synFlow where
  srcIp := by
    intro value hvalue
    obtain rfl := Option.some.inj (hvalue.symm.trans (rfl : _ = some "192.0.2.1".toList))
    decide
  dstIp := by
    intro value hvalue
    cases hvalue
  address := .inl (by decide)
  protocol := by
    intro value hvalue
    obtain rfl := Option.some.inj (hvalue.symm.trans (rfl : _ = some "6".toList))
    decide
  srcPort := by
    intro value hvalue
    cases hvalue
  dstPort := by
    intro value hvalue ports hports
    obtain rfl := Option.some.inj (hvalue.symm.trans (rfl : _ = some "443".toList))
    cases hports
    decide

end found

end SrxProbe.Validation
