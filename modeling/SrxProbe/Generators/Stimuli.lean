import SrxProbe.Collectors.Record
import SrxProbe.Generators.Flood
import SrxProbe.Generators.Fragments
import SrxProbe.Generators.Network

/-!
# Stimuli

What the packet and scan generators send, and the stimulus each of them returns for it. The
traffic is given by the headers on the wire, and every packet of it fits the tuple that the
stimulus tells the correlator to look for.
-/

namespace SrxProbe.Generators

open SrxProbe.Lib SrxProbe.Validation SrxProbe.Collectors.Pcap

/-! ## Descriptions -/

/-- The tuple says nothing else than the headers of the flow. -/
structure Describes (t : FiveTuple) (f : Flow) : Prop where
  srcIp : ∀ x ∈ t.srcIp, x = addressText f.ip.src
  dstIp : ∀ x ∈ t.dstIp, x = addressText f.ip.dst
  protocol : ∀ x ∈ t.protocol, protoNum.lookup (intText f.ip.proto.toNat) = some x
  srcPort : ∀ x ∈ t.srcPort, ∃ ports ∈ f.ports, x = ports.sport.toNat
  dstPort : ∀ x ∈ t.dstPort, ∃ ports ∈ f.ports, x = ports.dport.toNat

/-! ## Crafted packets -/

/-- `PacketGenerator`. -/
structure PacketGenerator where
  srcIp : PyStr
  dstIp : PyStr

/-- What `_ephemeral_port` returns. -/
structure EphemeralPort where
  port : Int
  low : 20000 ≤ port
  high : port ≤ 60000

/-- A TCP segment as it is asked of scapy; `none` leaves a field to scapy. -/
structure Segment where
  src : PyStr
  dst : PyStr
  ttl : Option Int
  sport : Int
  dport : Int
  flags : PyStr
  chksum : Option Nat
  deriving DecidableEq, Repr

/-- What one single packet has that another has not. -/
structure Variant where
  flags : PyStr
  ttl : Option Int
  chksum : Option Nat
  expectedEventType : PyStr
  payloadClass : Except PyErr PyStr
  detectionTarget : PyStr
  expectedFields : List PyStr

/-- `expected_fields` of everything a screen reports. -/
def screenFields : List PyStr :=
  ["source-address".toList, "destination-address".toList, "attack-name".toList]

namespace PacketGenerator

/-- The methods that send one packet. What importing scapy and sending come to is a parameter,
`none` for `send=False`. -/
def single (g : PacketGenerator) (v : Variant) (dstPort : Int) (sport : EphemeralPort)
    (ts : Timestamp) (send : Option (Except PyErr Unit)) :
    Except PyErr (Stimulus × List Segment) := do
  send.getD (.ok ())
  let packet := ⟨g.srcIp, g.dstIp, v.ttl, sport.port, dstPort, v.flags, v.chksum⟩
  let payloadClass ← v.payloadClass
  return (
    { fiveTuple := ⟨some g.srcIp, some g.dstIp, some "TCP".toList, some sport.port, some dstPort⟩
      timestamp := ts
      expectedEventType := v.expectedEventType
      payloadClass := payloadClass
      detectionTarget := v.detectionTarget
      expectedFields := v.expectedFields },
    if send.isSome then [packet] else [])

/-- `tcp_connection`. -/
def tcpConnection : Variant where
  flags := "S".toList
  ttl := none
  chksum := none
  expectedEventType := "RT_FLOW_SESSION_CREATE".toList
  payloadClass := .ok "tcp-syn".toList
  detectionTarget := "Session create".toList
  expectedFields := ["source-address".toList, "destination-address".toList,
    "policy-name".toList, "application".toList]

/-- `tcp_to_denied_port`. -/
def tcpToDeniedPort : Variant where
  flags := "S".toList
  ttl := none
  chksum := none
  expectedEventType := "RT_FLOW_SESSION_DENY".toList
  payloadClass := .ok "tcp-syn-denied".toList
  detectionTarget := "Session deny".toList
  expectedFields := ["source-address".toList, "destination-address".toList,
    "destination-port".toList]

/-- `malformed_flags`. -/
def malformedFlags : Variant where
  flags := "FS".toList
  ttl := none
  chksum := none
  expectedEventType := "RT_SCREEN_TCP".toList
  payloadClass := .ok "malformed-flags-synfin".toList
  detectionTarget := "Malformed packets".toList
  expectedFields := screenFields

/-- `bad_checksum`. -/
def badChecksum : Variant where
  flags := "S".toList
  ttl := none
  chksum := some 0xDEAD
  expectedEventType := "RT_SCREEN_TCP".toList
  payloadClass := .ok "bad-checksum".toList
  detectionTarget := "Malformed packets".toList
  expectedFields := screenFields

/-- `tiny_ttl`. -/
def tinyTtl (ttl : Int) : Variant where
  flags := "S".toList
  ttl := some ttl
  chksum := none
  expectedEventType := "RT_SCREEN_IP".toList
  payloadClass := (strInt ttl).map ("tiny-ttl-".toList ++ ·)
  detectionTarget := "Malformed packets".toList
  expectedFields := screenFields

/-- `overlapping_fragments`. -/
def fragments (g : PacketGenerator) (dstPort fragCount : Int) (sport : EphemeralPort)
    (ts : Timestamp) (send : Option (Except PyErr Unit)) :
    Except PyErr (Stimulus × List Fragment) := do
  send.getD (.ok ())
  return (
    { fiveTuple := ⟨some g.srcIp, some g.dstIp, some "TCP".toList, some sport.port, some dstPort⟩
      timestamp := ts
      expectedEventType := "RT_SCREEN_IP".toList
      payloadClass := "overlapping-fragments".toList
      detectionTarget := "Fragmentation".toList
      expectedFields := screenFields },
    if send.isSome then overlappingFragments g.srcIp g.dstIp sport.port dstPort fragCount else [])

end PacketGenerator

/-- The packet is on the wire with these headers, its addresses by what `resolves` makes of
them. -/
structure OnWire (resolves : PyStr → UInt32 → Prop) (src dst : PyStr) (proto : UInt8)
    (sport dport : Int) (f : Flow) : Prop where
  src : resolves src f.ip.src
  dst : resolves dst f.ip.dst
  proto : f.ip.proto = proto
  ports : ∃ ports, f.ports = some ports ∧ sport = ports.sport.toNat ∧ dport = ports.dport.toNat

/-! ## Scans and floods -/

/-- `ScanGenerator`. -/
structure ScanGenerator where
  srcIp : PyStr
  dstIp : PyStr
  limits : WorkloadLimits

/-- `_NMAP_SCAN_FLAGS`. -/
def nmapScanFlags : List (PyStr × PyStr) :=
  [("syn".toList, "-sS".toList), ("xmas".toList, "-sX".toList), ("fin".toList, "-sF".toList),
    ("null".toList, "-sN".toList), ("ack".toList, "-sA".toList)]

/-- `build_nmap_cmd`. -/
def buildNmapCmd (host : Host) (limits : WorkloadLimits) (dstIp scanType : PyStr)
    (maxPorts : Int) : Built :=
  match limits.scan (.int maxPorts) with
  | .error e => ⟨[], .error e⟩
  | .ok _ =>
      let scanType := host.lower scanType
      match nmapScanFlags.lookup scanType with
      | none => ⟨[], .error (.valueError ("Unsupported scan_type ".toList ++ host.repr scanType ++
          "; choose from ['ack', 'fin', 'null', 'syn', 'xmas']".toList))⟩
      | some flag => ⟨["nmap".toList], do
          let binary ← requireBinary host "nmap".toList
          let ports ← strInt maxPorts
          let rate ← strInt limits.maxRatePps
          let duration ← strInt limits.maxDurationS
          return [binary, flag, "-Pn".toList, "-n".toList, "-p".toList, "1-".toList ++ ports,
            "--max-retries".toList, "1".toList, "--max-rate".toList, rate,
            "--host-timeout".toList, duration ++ ['s'], dstIp]⟩

namespace ScanGenerator

/-- A method that describes traffic, and with `run=True` runs a command for it: what it builds
is looked up and run, and what `_execute` comes to is a parameter. -/
def describe (stimulus : Stimulus) (build : Built)
    (run : Option (List PyStr → Except PyErr Unit)) :
    Except PyErr (Stimulus × Option (List PyStr)) :=
  match run with
  | none => .ok (stimulus, none)
  | some execute => do
      let cmd ← build.result
      execute cmd
      return (stimulus, some cmd)

/-- `tcp_scan`. -/
def tcpScan (host : Host) (g : ScanGenerator) (scanType : PyStr) (maxPorts : Int)
    (ts : Timestamp) (run : Option (List PyStr → Except PyErr Unit)) :
    Except PyErr (Stimulus × Option (List PyStr)) := do
  let _ ← g.limits.scan (.int maxPorts)
  let scanType := host.lower scanType
  raiseIf (nmapScanFlags.lookup scanType = none)
    (.valueError ("Unsupported scan_type ".toList ++ host.repr scanType))
  describe
    -- a scan sweeps many ports
    { fiveTuple := ⟨some g.srcIp, some g.dstIp, some "TCP".toList, none, none⟩
      timestamp := ts
      expectedEventType := "RT_SCREEN_TCP".toList
      payloadClass := "nmap-".toList ++ scanType ++ "-scan".toList
      detectionTarget := "TCP scan".toList
      expectedFields := screenFields }
    (buildNmapCmd host g.limits g.dstIp scanType maxPorts) run

/-- `proto` of a flood. -/
def floodProtocols : List (PyStr × PyStr) :=
  [("syn".toList, "TCP".toList), ("icmp".toList, "ICMP".toList), ("udp".toList, "UDP".toList)]

/-- `flood`. -/
def flood (host : Host) (g : ScanGenerator) (floodType : PyStr) (dstPort count ratePps : Int)
    (ts : Timestamp) (run : Option (List PyStr → Except PyErr Unit)) :
    Except PyErr (Stimulus × Option (List PyStr)) := do
  let floodType := host.lower floodType
  let _ ← g.limits.flood (.str floodType) (.int dstPort) (.int count) (.int ratePps)
  let proto ← orRaise (floodProtocols.lookup floodType) .keyError
  describe
    { fiveTuple := ⟨some g.srcIp, some g.dstIp, some proto, none,
        if proto ≠ "ICMP".toList then some dstPort else none⟩
      timestamp := ts
      expectedEventType :=
        if proto = "TCP".toList then "RT_SCREEN_TCP".toList else "RT_SCREEN_".toList ++ proto
      payloadClass := "hping3-".toList ++ floodType ++ "-flood".toList
      detectionTarget := "Flood (SYN/ICMP/UDP)".toList
      expectedFields := screenFields }
    (buildHping3FloodCmd host g.limits g.dstIp floodType dstPort count ratePps) run

end ScanGenerator

/-! ## The stimulus describes the traffic -/

section packets

variable {g : PacketGenerator} {v : Variant} {dstPort fragCount : Int} {sport : EphemeralPort}
  {ts : Timestamp} {send : Option (Except PyErr Unit)} {stimulus : Stimulus} {f : Flow}

/-- The tuple of a packet describes what is on the wire of it. -/
theorem describes_onWire {src dst name : PyStr} {proto : UInt8} {sport dport : Int}
    (h : OnWire IsAddress src dst proto sport dport f)
    (hname : protoNum.lookup (intText proto.toNat) = some name) :
    Describes ⟨some src, some dst, some name, some sport, some dport⟩ f := by
  obtain ⟨ports, hports, hsport, hdport⟩ := h.ports
  refine ⟨?_, ?_, ?_, ?_, ?_⟩
  · intro x hx
    cases hx
    exact h.src.text
  · intro x hx
    cases hx
    exact h.dst.text
  · intro x hx
    cases hx
    rw [h.proto]
    exact hname
  · intro x hx
    cases hx
    exact ⟨ports, hports, hsport⟩
  · intro x hx
    cases hx
    exact ⟨ports, hports, hdport⟩

theorem single_describes {segments : List Segment} {segment : Segment}
    (h : g.single v dstPort sport ts send = .ok (stimulus, segments)) (hmem : segment ∈ segments)
    (hwire : OnWire IsAddress segment.src segment.dst 6 segment.sport segment.dport f) :
    Describes stimulus.fiveTuple f := by
  obtain ⟨-, h⟩ := seq_ok_iff.mp h
  obtain ⟨payloadClass, -, h⟩ := bind_ok_iff.mp h
  cases h
  split at hmem
  · obtain rfl := List.mem_singleton.mp hmem
    exact describes_onWire hwire (by decide)
  · cases hmem

theorem fragments_describes {frags : List Fragment} {frag : Fragment}
    (h : g.fragments dstPort fragCount sport ts send = .ok (stimulus, frags)) (hmem : frag ∈ frags)
    (hwire : OnWire IsAddress frag.src frag.dst 6 frag.sport frag.dport f) :
    Describes stimulus.fiveTuple f := by
  obtain ⟨-, h⟩ := seq_ok_iff.mp h
  cases h
  split at hmem
  · obtain ⟨i, -, rfl⟩ := mem_overlappingFragments.mp hmem
    exact describes_onWire hwire (by decide)
  · cases hmem

end packets

section scans

variable {host : Host} {g : ScanGenerator} {scanType floodType : PyStr}
  {maxPorts dstPort count ratePps : Int} {ts : Timestamp}
  {run : Option (List PyStr → Except PyErr Unit)} {stimulus described : Stimulus} {build : Built}
  {cmd : List PyStr} {f : Flow} {a : UInt32}

/-- The command that ran is the one that was built. -/
theorem describe_ran (h : ScanGenerator.describe described build run = .ok (stimulus, some cmd)) :
    stimulus = described ∧ build.result = .ok cmd := by
  unfold ScanGenerator.describe at h
  split at h
  · cases h
  · obtain ⟨built, hbuilt, h⟩ := bind_ok_iff.mp h
    obtain ⟨-, h⟩ := seq_ok_iff.mp h
    cases h
    exact ⟨rfl, hbuilt⟩

theorem snd_mem_of_lookup {entries : List (PyStr × PyStr)} {key value : PyStr}
    (h : entries.lookup key = some value) : value ∈ entries.map Prod.snd := by
  obtain ⟨before, after, rfl, -⟩ := List.lookup_eq_some_iff.mp h
  exact List.mem_map.mpr ⟨(key, value), List.mem_append_right _ List.mem_cons_self, rfl⟩

theorem strInt_small {n : Int} (hlow : 0 ≤ n) (hhigh : n < 10000000) :
    strInt n = .ok (intText n) := by
  have hlen : (Nat.toDigits 10 n.natAbs).length ≤ 7 :=
    length_toDigits_of_lt (by omega) (by decide)
  exact strInt_ok_iff.mpr ⟨hlen.trans (by decide), rfl⟩

/-- The arguments of a scan. -/
def nmapArgs (flag ports rate duration dstIp : PyStr) : List PyStr :=
  [flag, "-Pn".toList, "-n".toList, "-p".toList, ports, "--max-retries".toList, "1".toList,
    "--max-rate".toList, rate, "--host-timeout".toList, duration, dstIp]

/-- What the builder of a scan returns. -/
theorem buildNmapCmd_ok_iff {limits : WorkloadLimits} {dstIp : PyStr} :
    (buildNmapCmd host limits dstIp scanType maxPorts).result = .ok cmd ↔
      (1 ≤ maxPorts ∧ maxPorts ≤ limits.maxPorts) ∧ ∃ flag binary rate duration,
        nmapScanFlags.lookup (host.lower scanType) = some flag ∧
        host.which "nmap".toList = some binary ∧ strInt limits.maxRatePps = .ok rate ∧
        strInt limits.maxDurationS = .ok duration ∧
        cmd = binary :: nmapArgs flag ("1-".toList ++ intText maxPorts) rate (duration ++ ['s'])
          dstIp := by
  have hscan : limits.scan (.int maxPorts) = .ok () ↔ 1 ≤ maxPorts ∧ maxPorts ≤ limits.maxPorts := by
    unfold WorkloadLimits.scan
    exact boundedInt_bind_ok_iff.trans (and_iff_left rfl)
  have hceiling := limits.ports
  unfold buildNmapCmd
  simp only
  split
  · rename_i e he
    constructor
    · intro h
      cases h
    · rintro ⟨hbounds, -⟩
      cases he.symm.trans (hscan.mpr hbounds)
  · rename_i hok
    rw [← hscan, hok]
    simp only [true_and]
    have hbounds := hscan.mp hok
    split
    · rename_i hnone
      simp [hnone]
    · rename_i flag hflag
      rw [strInt_small (by omega) (by omega)]
      simp only [bind_ok_iff, requireBinary, orRaise_ok_iff, ok_bind, hflag, Option.some.injEq]
      constructor
      · rintro ⟨binary, hbinary, rate, hrate, duration, hduration, h⟩
        cases h
        exact ⟨flag, binary, rate, duration, rfl, hbinary, hrate, hduration, rfl⟩
      · rintro ⟨_, binary, rate, duration, rfl, hbinary, hrate, hduration, rfl⟩
        exact ⟨binary, hbinary, rate, hrate, duration, hduration, rfl⟩

/-- The options of a scan as they are read. -/
def nmapOptions (flag ports rate duration : PyStr) : List (PyStr × PyStr) :=
  [(flag, []), ("-Pn".toList, []), ("-n".toList, []), ("-p".toList, ports),
    ("--max-retries".toList, "1".toList), ("--max-rate".toList, rate),
    ("--host-timeout".toList, duration)]

theorem lookup_nmapOptions {flag ports rate duration name value : PyStr}
    (hflag : flag ∈ nmapScanFlags.map Prod.snd)
    (hname : name ∈ Tool.nmap.valued)
    (hlookup : (nmapOptions flag ports rate duration).tail.lookup name = some value) :
    (nmapOptions flag ports rate duration).lookup name = some value := by
  have hall : ∀ name ∈ Tool.nmap.valued, ∀ s ∈ nmapScanFlags.map Prod.snd, (name == s) = false := by
    decide
  unfold nmapOptions
  rw [List.lookup_cons, hall name hname flag hflag]
  exact hlookup

/-- A scan of a target that does not look like an option is read as it is meant. -/
theorem reads_nmap {flag ports rate duration dstIp : PyStr}
    (hflag : flag ∈ nmapScanFlags.map Prod.snd) (htarget : dstIp.head? ≠ some '-') :
    Tool.nmap.reads (nmapArgs flag ports rate duration dstIp) =
      some (nmapOptions flag ports rate duration, [dstIp]) := by
  have hflags : ∀ s ∈ nmapScanFlags.map Prod.snd, s ∈ Tool.nmap.flags := by decide
  unfold Tool.reads nmapArgs
  rw [getopt_flag (hflags flag hflag), getopt_flag (by decide), getopt_flag (by decide),
    getopt_valued (by decide) (by decide), getopt_valued (by decide) (by decide),
    getopt_valued (by decide) (by decide), getopt_valued (by decide) (by decide),
    getopt_operand (by decide) htarget]
  rfl

/-- The call of `nmap` that a scan is. -/
def nmapCall (rate duration : PyStr) {flag dstIp : PyStr}
    (hflag : flag ∈ nmapScanFlags.map Prod.snd) (htarget : dstIp.head? ≠ some '-') (ports : Nat) :
    NmapCall (nmapArgs flag ("1-".toList ++ intText ports) rate duration dstIp) where
  options := nmapOptions flag ("1-".toList ++ intText ports) rate duration
  targets := [dstIp]
  low := 1
  high := ports
  reads := reads_nmap hflag htarget
  noDiscovery := by simp [nmapOptions]
  noLookup := by simp [nmapOptions]
  ports := lookup_nmapOptions hflag (by decide) rfl

/-- What is sent for a scan. -/
theorem nmapCall_aims_iff {specifies : PyStr → UInt32 → Prop} {flag rate duration dstIp : PyStr}
    {hflag : flag ∈ nmapScanFlags.map Prod.snd} {htarget : dstIp.head? ≠ some '-'} {ports : Nat}
    {aim : Aim} :
    (nmapCall rate duration hflag htarget ports).Aims specifies aim ↔
      specifies dstIp aim.dst ∧ aim.proto = 6 ∧
        ∃ port ∈ aim.port, 1 ≤ port.toNat ∧ port.toNat ≤ ports := by
  constructor
  · intro h
    obtain ⟨target, hmem, hdst⟩ := h.dst
    obtain rfl := List.mem_singleton.mp hmem
    exact ⟨hdst, h.proto, h.port⟩
  · rintro ⟨hdst, hproto, hport⟩
    exact ⟨⟨dstIp, List.mem_singleton_self dstIp, hdst⟩, hproto, hport⟩

/-- A scan within its bounds is run. -/
theorem nmapCall_runs {flag dstIp : PyStr} (hflag : flag ∈ nmapScanFlags.map Prod.snd)
    (htarget : dstIp.head? ≠ some '-') {rate duration ports : Nat}
    (hrate : 0 < rate ∧ rate ≤ 1000000) (hduration : 0 < duration ∧ duration ≤ 1000000)
    (hports : ports ≤ 65535) :
    (nmapCall (intText rate) (intText duration ++ ['s']) hflag htarget ports).Runs where
  oneScan := by
    have hone : ∀ s ∈ nmapScanFlags.map Prod.snd, ([s, "-Pn".toList, "-n".toList, "-p".toList,
        "--max-retries".toList, "--max-rate".toList, "--host-timeout".toList].filter
          (· ∈ scanTypes)) = [s] := by decide
    exact ⟨flag, hone flag hflag⟩
  retries := ⟨1, by decide, by decide, lookup_nmapOptions hflag (by decide) rfl⟩
  rate := counts_of_lookup hrate (lookup_nmapOptions hflag (by decide) rfl)
  timeout := ⟨duration, hduration.1, hduration.2, lookup_nmapOptions hflag (by decide) rfl⟩
  high := hports

/-- The source of a scan is that of the host: `nmap` is given none. -/
theorem tcpScan_describes (net : Network)
    (h : g.tcpScan host scanType maxPorts ts run = .ok (stimulus, some cmd))
    (htarget : IsAddress g.dstIp a) (hsends : net.sends .nmap cmd f)
    (hsrc : IsAddress g.srcIp f.ip.src) : Describes stimulus.fiveTuple f := by
  obtain ⟨-, h⟩ := seq_ok_iff.mp h
  obtain ⟨-, h⟩ := seq_ok_iff.mp h
  obtain ⟨rfl, hcmd⟩ := describe_ran h
  obtain ⟨⟨hlow, -⟩, flag, binary, rate, duration, hflag, -, -, -, rfl⟩ :=
    buildNmapCmd_ok_iff.mp hcmd
  obtain ⟨ports, rfl⟩ := Int.eq_ofNat_of_zero_le (by omega : 0 ≤ maxPorts)
  have haims := net.nmap_only
    (nmapCall rate (duration ++ ['s']) (snd_mem_of_lookup hflag) htarget.head_ne ports) hsends
  obtain ⟨hdst, hproto, -⟩ := nmapCall_aims_iff.mp haims
  have hself : f.ip.dst = a := net.specifies_address htarget hdst
  refine ⟨?_, ?_, ?_, nofun, nofun⟩
  · intro x hx
    cases hx
    exact hsrc.text
  · intro x hx
    cases hx
    rw [hself]
    exact htarget.text
  · intro x hx
    cases hx
    rw [show f.ip.proto = 6 from hproto]
    decide

/-- The options of a flood whose port can be written. -/
theorem floodOptions_eq {kind : FloodType} (hport : 0 ≤ dstPort ∧ dstPort ≤ 65535) :
    floodOptions host kind.text dstPort = .ok (kind.options dstPort) := by
  have htext : strInt dstPort = .ok (intText dstPort) := strInt_small hport.1 (by omega)
  unfold floodOptions
  rw [Host.lower_text]
  cases kind with
  | syn =>
      rw [if_pos (by decide), htext]
      rfl
  | icmp => rfl
  | udp =>
      rw [if_neg (by decide), if_neg (by decide), if_pos (by decide), htext]
      rfl

/-- What the builder of a flood returns. -/
theorem buildFlood_ok_iff {limits : WorkloadLimits} {dstIp : PyStr} :
    (buildHping3FloodCmd host limits dstIp floodType dstPort count ratePps).result = .ok cmd ↔
      ∃ kind : FloodType, host.lower floodType = kind.text ∧
        ((if kind = .icmp then 0 else 1) ≤ dstPort ∧ dstPort ≤ 65535) ∧
        (1 ≤ count ∧ count ≤ limits.maxPackets) ∧ (1 ≤ ratePps ∧ ratePps ≤ limits.maxRatePps) ∧
        count * WorkloadLimits.intervalUs ratePps ≤ limits.maxDurationS * 1000000 ∧
        ∃ binary packets, host.which "hping3".toList = some binary ∧ strInt count = .ok packets ∧
          cmd = binary :: (["-c".toList, packets, "-i".toList,
            'u' :: intText (WorkloadLimits.intervalUs ratePps)] ++ kind.options dstPort ++
              [dstIp]) := by
  have hargs : ∀ {kind : FloodType} {binary : PyStr}, host.lower floodType = kind.text →
      ((if kind = .icmp then 0 else 1) ≤ dstPort ∧ dstPort ≤ 65535) → 1 ≤ ratePps →
      (hping3Args host binary dstIp (host.lower floodType) dstPort count ratePps = .ok cmd ↔
        ∃ packets, strInt count = .ok packets ∧
          cmd = binary :: (["-c".toList, packets, "-i".toList,
            'u' :: intText (WorkloadLimits.intervalUs ratePps)] ++ kind.options dstPort ++
              [dstIp])) := by
    intro kind binary htext hport hrate
    have hpause : 0 ≤ WorkloadLimits.intervalUs ratePps ∧
        WorkloadLimits.intervalUs ratePps < 10000000 := by
      obtain ⟨hpos, -, hslow⟩ := intervalUs_bounds hrate
      have hle : (WorkloadLimits.intervalUs ratePps - 1) * 1 ≤
          (WorkloadLimits.intervalUs ratePps - 1) * ratePps :=
        Int.mul_le_mul_of_nonneg_left hrate (by omega)
      omega
    have hport : 0 ≤ dstPort ∧ dstPort ≤ 65535 := by
      refine ⟨?_, hport.2⟩
      have := hport.1
      split at this <;> omega
    unfold hping3Args
    rw [htext, strInt_small hpause.1 hpause.2, floodOptions_eq hport]
    simp only [ok_bind, bind_ok_iff, pure, Except.pure, Except.ok.injEq]
    refine exists_congr fun packets => and_congr_right fun _ => ?_
    rw [eq_comm]
    rfl
  unfold buildHping3FloodCmd
  simp only
  split
  · rename_i e he
    constructor
    · intro h
      cases h
    · rintro ⟨kind, htext, hport, hcount, hrate, hpace, -⟩
      cases he.symm.trans (flood_ok_iff.mpr ⟨kind, htext, hport, hcount, hrate, hpace⟩)
  · rename_i hok
    obtain ⟨kind, htext, hport, hcount, hrate, hpace⟩ := flood_ok_iff.mp hok
    simp only [bind_ok_iff, requireBinary, orRaise_ok_iff]
    constructor
    · rintro ⟨binary, hbinary, h⟩
      obtain ⟨packets, hpackets, hcmd⟩ := (hargs htext hport hrate.1).mp h
      exact ⟨kind, htext, hport, hcount, hrate, hpace, binary, packets, hbinary, hpackets, hcmd⟩
    · rintro ⟨kind', htext', hport', -, -, -, binary, packets, hbinary, hpackets, hcmd⟩
      exact ⟨binary, hbinary, (hargs htext' hport' hrate.1).mpr ⟨packets, hpackets, hcmd⟩⟩

/-- The options of a flood as they are read. -/
def readOptions (packets pause : PyStr) (port : Int) (kind : FloodType) : List (PyStr × PyStr) :=
  [("-c".toList, packets), ("-i".toList, pause)] ++
    match kind with
    | .syn => [("-S".toList, []), ("-p".toList, intText port)]
    | .icmp => [("--icmp".toList, [])]
    | .udp => [("--udp".toList, []), ("-p".toList, intText port)]

/-- A flood of a target that does not look like an option is read as it is meant. -/
theorem reads_hping3 {kind : FloodType} {packets pause dstIp : PyStr}
    (htarget : dstIp.head? ≠ some '-') :
    Tool.hping3.reads (["-c".toList, packets, "-i".toList, pause] ++ kind.options dstPort ++
      [dstIp]) = some (readOptions packets pause dstPort kind, [dstIp]) := by
  unfold Tool.reads
  cases kind
  all_goals
    simp only [FloodType.options, List.cons_append, List.nil_append]
    rw [getopt_valued (by decide) (by decide), getopt_valued (by decide) (by decide),
      getopt_flag (by decide)]
    try rw [getopt_valued (by decide) (by decide)]
    rw [getopt_operand (by decide) htarget]
    rfl

/-- The call of `hping3` that a flood is. -/
def hping3Call (kind : FloodType) (packets pause : PyStr) {dstIp : PyStr}
    (htarget : dstIp.head? ≠ some '-') (port : Nat) :
    Hping3Call (["-c".toList, packets, "-i".toList, pause] ++ kind.options port ++ [dstIp]) where
  options := readOptions packets pause port kind
  target := dstIp
  port := port
  reads := reads_hping3 htarget
  protocol := by cases kind <;> simp [readOptions]
  given := by
    cases kind with
    | icmp => exact .inl (by simp [readOptions])
    | _ => exact .inr rfl

/-- The traffic of a flood. -/
def FloodTraffic (kind : FloodType) (dstPort : Int) (aim : Aim) : Prop :=
  match kind with
  | .icmp => aim.proto = 1 ∧ aim.port = none
  | .syn => aim.proto = 6 ∧ ∃ port ∈ aim.port, dstPort = port.toNat
  | .udp => aim.proto = 17 ∧ ∃ port ∈ aim.port, dstPort = port.toNat

/-- What is sent for a flood. -/
theorem hping3Call_aims_iff {resolves : PyStr → UInt32 → Prop} {kind : FloodType}
    {packets pause dstIp : PyStr} {htarget : dstIp.head? ≠ some '-'} {port : Nat} {aim : Aim} :
    (hping3Call kind packets pause htarget port).Aims resolves aim ↔
      resolves dstIp aim.dst ∧ FloodTraffic kind port aim := by
  have hsent : (if ("--icmp".toList, []) ∈ readOptions packets pause port kind then
      aim.proto = 1 ∧ aim.port = none
      else aim.proto = (if ("--udp".toList, []) ∈ readOptions packets pause port kind then 17
          else 6) ∧ ∃ dport ∈ aim.port, port = dport.toNat) ↔ FloodTraffic kind port aim := by
    unfold FloodTraffic
    cases kind with
    | icmp => rw [if_pos (by simp [readOptions])]
    | syn =>
        rw [if_neg (by simp [readOptions]), if_neg (by simp [readOptions])]
        simp only [Int.natCast_inj]
    | udp =>
        rw [if_neg (by simp [readOptions]), if_pos (by simp [readOptions])]
        simp only [Int.natCast_inj]
  exact ⟨fun h => ⟨h.dst, hsent.mp h.sent⟩, fun h => ⟨h.1, hsent.mpr h.2⟩⟩

/-- A flood within its bounds is run. -/
theorem hping3Call_runs {kind : FloodType} {dstIp : PyStr} (htarget : dstIp.head? ≠ some '-')
    {packets pause port : Nat} (hpackets : 0 < packets ∧ packets ≤ 1000000)
    (hpause : 0 < pause ∧ pause ≤ 1000000) :
    (hping3Call kind (intText packets) ('u' :: intText pause) htarget port).Runs where
  count := counts_of_lookup hpackets rfl
  interval := by
    refine ⟨pause, hpause.1, hpause.2, ?_⟩
    show some ('u' :: intText pause) = some ('u' :: intText pause ++ [])
    rw [List.append_nil]

/-- The source of a flood is that of the host, too. -/
theorem flood_describes (net : Network)
    (h : g.flood host floodType dstPort count ratePps ts run = .ok (stimulus, some cmd))
    (htarget : IsAddress g.dstIp a) (hsends : net.sends .hping3 cmd f)
    (hsrc : IsAddress g.srcIp f.ip.src) : Describes stimulus.fiveTuple f := by
  obtain ⟨hflood, h⟩ := seq_ok_iff.mp h
  obtain ⟨proto, hproto, h⟩ := bind_ok_iff.mp h
  obtain ⟨rfl, hcmd⟩ := describe_ran h
  obtain ⟨kind, htext, hport, -, -, -, binary, packets, -, -, rfl⟩ := buildFlood_ok_iff.mp hcmd
  obtain ⟨port, rfl⟩ : ∃ port : Nat, dstPort = port := by
    refine Int.eq_ofNat_of_zero_le ?_
    have hlow := hport.1
    split at hlow <;> omega
  have haims := net.hping3_only (hping3Call kind packets _ htarget.head_ne port) hsends
  obtain ⟨hdst, htraffic⟩ := hping3Call_aims_iff.mp haims
  have hself : f.ip.dst = a := net.address _ _ _ htarget hdst
  -- lowering a known name again changes nothing
  obtain ⟨kind', hkind', -⟩ := flood_ok_iff.mp hflood
  rw [hkind', Host.lower_text] at htext
  rw [hkind', htext] at hproto
  have hproto := orRaise_ok_iff.mp hproto
  have htuple : ∀ x ∈ some g.srcIp, x = addressText f.ip.src := by
    intro x hx
    cases hx
    exact hsrc.text
  have hdst' : ∀ x ∈ some g.dstIp, x = addressText f.ip.dst := by
    intro x hx
    cases hx
    rw [hself]
    exact htarget.text
  have hports : ∀ x : Int, (∃ dport ∈ f.aim.port, x = dport.toNat) →
      ∃ ports ∈ f.ports, x = ports.dport.toNat := by
    rintro x ⟨dport, hdport, rfl⟩
    obtain ⟨ports, hports, rfl⟩ := Flow.mem_port.mp hdport
    exact ⟨ports, hports, rfl⟩
  cases kind with
  | icmp =>
      obtain rfl := Option.some.inj (hproto.symm.trans (rfl : _ = some "ICMP".toList))
      refine ⟨htuple, hdst', ?_, nofun, nofun⟩
      intro x hx
      cases hx
      rw [show f.ip.proto = 1 from htraffic.1]
      decide
  | syn =>
      obtain rfl := Option.some.inj (hproto.symm.trans (rfl : _ = some "TCP".toList))
      refine ⟨htuple, hdst', ?_, nofun, ?_⟩
      · intro x hx
        cases hx
        rw [show f.ip.proto = 6 from htraffic.1]
        decide
      · intro x hx
        cases hx
        exact hports _ htraffic.2
  | udp =>
      obtain rfl := Option.some.inj (hproto.symm.trans (rfl : _ = some "UDP".toList))
      refine ⟨htuple, hdst', ?_, nofun, ?_⟩
      · intro x hx
        cases hx
        rw [show f.ip.proto = 17 from htraffic.1]
        decide
      · intro x hx
        cases hx
        exact hports _ htraffic.2

end scans

end SrxProbe.Generators
