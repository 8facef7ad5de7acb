import SrxProbe.Generators.Load

/-!
# Rules for flows

A rule says what flows may be: the program that sends them, where they come from and go to, and
their protocol and ports. What the programs of the generators send for the commands that are
built is what the rule of a command says.
-/

namespace SrxProbe.Generators

open SrxProbe.Lib SrxProbe.Collectors.Pcap

/-! ## Rules -/

/-- The flows of a program, or of this process; the source is that of crafted packets. -/
structure Rule where
  tool : Option Tool
  source : Option PyStr
  host : PyStr
  proto : UInt8
  ports : Option (Int × Int)
  deriving DecidableEq, Repr

namespace Rule

/-- The destination port is in the range; without a range there are no ports. -/
def PortsFit (range : Option (Int × Int)) (port : Option UInt16) : Prop :=
  match range with
  | none => port = none
  | some (low, high) => ∃ p ∈ port, low ≤ (p.toNat : Int) ∧ (p.toNat : Int) ≤ high

/-- What a rule says of where a flow goes. -/
structure Aims (net : Network) (rule : Rule) (aim : Aim) : Prop where
  dst : net.takes rule.tool rule.host aim.dst
  proto : aim.proto = rule.proto
  ports : PortsFit rule.ports aim.port

/-- What a rule says of the headers of a flow. A crafted packet has an ephemeral source port. -/
structure Fits (net : Network) (rule : Rule) (f : Flow) : Prop where
  source : ∀ src ∈ rule.source, net.resolves src f.ip.src ∧ ∃ ports, f.ports = some ports ∧
    20000 ≤ (ports.sport.toNat : Int) ∧ (ports.sport.toNat : Int) ≤ 60000
  aims : rule.Aims net f.aim

/-- A flow that fits, of a program that is installed. -/
structure Allows (host : Host) (net : Network) (rule : Rule) (f : Flow) : Prop where
  installed : ∀ tool ∈ rule.tool, (host.which tool.name).isSome = true
  fits : rule.Fits net f

end Rule

section rules

variable (target : PyStr)

/-- Connections to one port. -/
def tcpRule (port : Int) : Rule := ⟨none, none, target, 6, some (port, port)⟩

/-- Packets with the source that they are given. -/
def craftedRule (src : PyStr) (port : Int) : Rule := ⟨none, some src, target, 6, some (port, port)⟩

def scanRule (maxPorts : Int) : Rule := ⟨some .nmap, none, target, 6, some (1, maxPorts)⟩

def floodRule (kind : FloodType) (port : Int) : Rule :=
  match kind with
  | .syn => ⟨some .hping3, none, target, 6, some (port, port)⟩
  | .icmp => ⟨some .hping3, none, target, 1, none⟩
  | .udp => ⟨some .hping3, none, target, 17, some (port, port)⟩

def loadRule (port : Int) : Rule := ⟨some .wrk, none, target, 6, some (port, port)⟩

def streamRule (port : Int) : Rule := ⟨some .iperf3, none, target, 6, some (port, port)⟩

end rules

/-! ## Programs -/

section programs

variable {net : Network} {f : Flow} {aim : Aim} {port : Int}

/-- One port is a range of ports. -/
theorem portsFit_self : Rule.PortsFit (some (port, port)) aim.port ↔
    ∃ p ∈ aim.port, port = p.toNat := by
  unfold Rule.PortsFit
  refine exists_congr fun p => and_congr_right fun _ => ?_
  omega

theorem aims_iff {tool : Option Tool} {source : Option PyStr} {host : PyStr} {proto : UInt8}
    {range : Option (Int × Int)} (htool : tool ≠ some .nmap) :
    Rule.Aims net ⟨tool, source, host, proto, range⟩ aim ↔
      net.resolves host aim.dst ∧ aim.proto = proto ∧ Rule.PortsFit range aim.port := by
  rw [← net.takes_of_ne htool]
  exact ⟨fun h => ⟨h.dst, h.proto, h.ports⟩, fun h => ⟨h.1, h.2.1, h.2.2⟩⟩

/-- Only crafted packets have a source. -/
theorem fits_of_aims {rule : Rule} (hsource : rule.source = none) (h : rule.Aims net f.aim) :
    rule.Fits net f :=
  ⟨by simp [hsource], h⟩

section scan

variable {binary flag rate duration dstIp : PyStr} {ports : Nat}

theorem scanRule_aims_iff : (scanRule dstIp ports).Aims net aim ↔
    net.specifies dstIp aim.dst ∧ aim.proto = 6 ∧
      ∃ p ∈ aim.port, 1 ≤ p.toNat ∧ p.toNat ≤ ports := by
  have hports : Rule.PortsFit (some (1, (ports : Int))) aim.port ↔
      ∃ p ∈ aim.port, 1 ≤ p.toNat ∧ p.toNat ≤ ports := by
    unfold Rule.PortsFit
    refine exists_congr fun p => and_congr_right fun _ => ?_
    omega
  constructor
  · intro h
    exact ⟨h.dst, h.proto, hports.mp h.ports⟩
  · intro h
    exact ⟨h.1, h.2.1, hports.mpr h.2.2⟩

/-- A scan sends what its rule says. -/
theorem fits_of_scan (hflag : flag ∈ nmapScanFlags.map Prod.snd) (htarget : dstIp.head? ≠ some '-')
    (h : net.sends .nmap
      (binary :: nmapArgs flag ("1-".toList ++ intText ports) rate duration dstIp) f) :
    (scanRule dstIp ports).Fits net f := by
  have haims := net.nmap_only (nmapCall rate duration hflag htarget ports) h
  exact fits_of_aims rfl (scanRule_aims_iff.mpr (nmapCall_aims_iff.mp haims))

/-- A scan within its bounds sends something for all of its rule. -/
theorem sends_of_scan {rate duration : Nat} (hflag : flag ∈ nmapScanFlags.map Prod.snd)
    (htarget : dstIp.head? ≠ some '-') (hrate : 0 < rate ∧ rate ≤ 1000000)
    (hduration : 0 < duration ∧ duration ≤ 1000000) (hports : ports ≤ 65535)
    (h : (scanRule dstIp ports).Aims net aim) :
    ∃ f, net.sends .nmap (binary :: nmapArgs flag ("1-".toList ++ intText ports) (intText rate)
      (intText duration ++ ['s']) dstIp) f ∧ f.aim = aim :=
  net.nmap_all (nmapCall _ _ hflag htarget ports)
    (nmapCall_runs hflag htarget hrate hduration hports)
    (nmapCall_aims_iff.mpr (scanRule_aims_iff.mp h))

end scan

section flood

variable {binary packets pause dstIp : PyStr} {kind : FloodType}

/-- The rule of a flood is its traffic to the target. -/
theorem floodRule_aims_iff : (floodRule dstIp kind port).Aims net aim ↔
    net.resolves dstIp aim.dst ∧ FloodTraffic kind port aim := by
  cases kind with
  | icmp => exact aims_iff (by decide)
  | syn =>
      refine (aims_iff (by decide)).trans (and_congr_right fun _ => and_congr_right fun _ => ?_)
      exact portsFit_self
  | udp =>
      refine (aims_iff (by decide)).trans (and_congr_right fun _ => and_congr_right fun _ => ?_)
      exact portsFit_self

theorem fits_of_flood {port : Nat} (htarget : dstIp.head? ≠ some '-')
    (h : net.sends .hping3 (binary :: (["-c".toList, packets, "-i".toList, pause] ++
      kind.options port ++ [dstIp])) f) : (floodRule dstIp kind port).Fits net f := by
  have haims := net.hping3_only (hping3Call kind packets pause htarget port) h
  refine fits_of_aims ?_ (floodRule_aims_iff.mpr (hping3Call_aims_iff.mp haims))
  cases kind <;> rfl

theorem sends_of_flood {packets pause port : Nat} (htarget : dstIp.head? ≠ some '-')
    (hpackets : 0 < packets ∧ packets ≤ 1000000) (hpause : 0 < pause ∧ pause ≤ 1000000)
    (h : (floodRule dstIp kind port).Aims net aim) :
    ∃ f, net.sends .hping3 (binary :: (["-c".toList, intText packets, "-i".toList,
      'u' :: intText pause] ++ kind.options port ++ [dstIp])) f ∧ f.aim = aim :=
  net.hping3_all (hping3Call kind _ _ htarget port) (hping3Call_runs htarget hpackets hpause)
    (hping3Call_aims_iff.mpr (floodRule_aims_iff.mp h))

end flood

section load

variable {binary c t d url server : PyStr}

theorem loadRule_aims_iff {host : PyStr} : (loadRule host port).Aims net aim ↔
    net.resolves host aim.dst ∧ aim.proto = 6 ∧ ∃ p ∈ aim.port, port = p.toNat :=
  (aims_iff (by decide)).trans (and_congr_right fun _ => and_congr_right fun _ => portsFit_self)

/-- A load goes to the host and the port of its URL. -/
theorem wrkCall_aims_iff {hurl : url.head? ≠ some '-'} :
    (wrkCall c t d hurl).Aims net.resolves net.endpoint aim ↔
      ∃ host port, net.endpoint url = some (host, port) ∧ (loadRule host port).Aims net aim := by
  constructor
  · intro h
    obtain ⟨host, port, hendpoint, hdst, hport⟩ := h.dst
    exact ⟨host, port, hendpoint, loadRule_aims_iff.mpr ⟨hdst, h.proto, hport⟩⟩
  · rintro ⟨host, port, hendpoint, haims⟩
    obtain ⟨hdst, hproto, hport⟩ := loadRule_aims_iff.mp haims
    exact ⟨⟨host, port, hendpoint, hdst, hport⟩, hproto⟩

/-- A stream goes to its server. -/
theorem iperf3Call_aims_iff {hserver : '%' ∉ server} {port : Nat} :
    (iperf3Call hserver d t port).Aims net.resolves aim ↔ (streamRule server port).Aims net aim := by
  have hport : Rule.PortsFit (some ((port : Int), (port : Int))) aim.port ↔
      ∃ p ∈ aim.port, port = p.toNat := by
    rw [portsFit_self]
    simp only [Int.natCast_inj]
  constructor
  · intro h
    exact (aims_iff (by decide)).mpr ⟨h.dst, h.proto, hport.mpr h.port⟩
  · intro h
    obtain ⟨hdst, hproto, hrange⟩ := (aims_iff (by decide)).mp h
    exact ⟨hdst, hproto, hport.mp hrange⟩

/-- A load sends something for every connection to its endpoint. -/
theorem sends_of_load {host : PyStr} {connections threads duration : Nat}
    (hurl : url.head? ≠ some '-') (hthreads : 0 < threads ∧ threads ≤ connections)
    (hconnections : connections ≤ 1000000) (hduration : 0 < duration ∧ duration ≤ 1000000)
    (hendpoint : net.endpoint url = some (host, port)) (h : (loadRule host port).Aims net aim) :
    ∃ f, net.sends .wrk (binary :: wrkArgs (intText connections) (intText threads)
      (intText duration ++ ['s']) url) f ∧ f.aim = aim :=
  net.wrk_all (wrkCall _ _ _ hurl) (wrkCall_runs hurl hthreads hconnections hduration)
    (wrkCall_aims_iff.mpr ⟨host, port, hendpoint, h⟩)

theorem sends_of_stream {duration parallel port : Nat} (hserver : '%' ∉ server)
    (hduration : 0 < duration ∧ duration ≤ 86400) (hparallel : 0 < parallel ∧ parallel ≤ 128)
    (h : (streamRule server port).Aims net aim) :
    ∃ f, net.sends .iperf3 (binary :: iperf3Args server (intText duration) (intText parallel)
      (intText port)) f ∧ f.aim = aim :=
  net.iperf3_all (iperf3Call hserver _ _ port) (iperf3Call_runs hserver hduration hparallel)
    (iperf3Call_aims_iff.mpr h)

end load

end programs

end SrxProbe.Generators
