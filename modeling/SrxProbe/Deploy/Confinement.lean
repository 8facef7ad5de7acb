import SrxProbe.Deploy.Senders
import SrxProbe.Generators.Rules

/-!
# What a command line lets out

The rules of a command, read off its arguments, and that `main` sends nothing else: whatever the
command line, every flow fits a rule of its command, was agreed to, and goes to the target that
was given.
-/

namespace SrxProbe.Deploy

open SrxProbe.Lib SrxProbe.Generators

/-! ## The rules of a command -/

/-- The number of an option whose type is `int`. -/
def num (value : PyValue) : Int :=
  match value with
  | .int n => n
  | _ => 0

/-- The text of an option. -/
def txt (value : PyValue) : PyStr := value.str?.getD []

section rules

variable (net : Network) (target src : PyStr)

def dnsRules (qname : PyStr) : List Rule :=
  if (dnsPacket qname).toOption.isSome then [⟨none, none, target, 17, some (53, 53)⟩] else []

/-- A crawl connects to what `http.client` makes of its URL. -/
def crawlRules (path scheme : PyStr) (port : PyValue) : List Rule :=
  match targetUrl target path scheme port >>= validateUrl with
  | .error _ => []
  | .ok u => (crawlConnection u).toList.map fun (host, port) => tcpRule host port

def floodRules (floodType : PyStr) (port : Int) : List Rule :=
  ([.syn, .icmp, .udp].filter fun kind : FloodType => kind.text = floodType).map
    (floodRule target · port)

/-- A load goes to the host and the port that `wrk` reads from its URL. -/
def loadRules (url : PyStr) : List Rule :=
  (net.endpoint url).toList.map fun (host, port) => loadRule host port

/-- The URL of the root of a target. -/
def rootUrl : PyStr := "http://".toList ++ target ++ "/".toList

/-- The rules of the suite. -/
def suiteRules : List Rule :=
  [tcpRule target 80] ++ dnsRules target "probe.lab".toList ++
    [tcpRule target 21, tcpRule target 80, tcpRule target 80] ++
    [scanRule target 1024, scanRule target 1024, scanRule target 1024] ++
    [floodRule target .syn 80, floodRule target .icmp 0, floodRule target .udp 53] ++
    [craftedRule target src 80, craftedRule target src 80, craftedRule target src 80,
      craftedRule target src 80, craftedRule target src 9] ++
    loadRules net (rootUrl target) ++ [streamRule target 5201]

/-- The rules of a command whose options were given. -/
def commandRules (given : String → PyValue) (command : Command) : List Rule :=
  match command with
  | .http | .handshake | .eicar | .gtube => [tcpRule target (num (given "port"))]
  | .crawl => crawlRules target (txt (given "path")) (txt (given "scheme")) (given "port")
  | .dns => dnsRules target (txt (given "qname"))
  | .scan => [scanRule target (num (given "max-ports"))]
  | .flood => floodRules target (txt (given "type")) (num (given "port"))
  | .malformed | .badcsum | .ttl | .frag | .deny => [craftedRule target src (num (given "port"))]
  | .wrk => loadRules net (if (given "url").truthy then txt (given "url") else rootUrl target)
  | .iperf => [streamRule target (num (given "port"))]
  | .all => suiteRules net target src

end rules

/-- The options that the rules of a command are read off. -/
def ruleNames : Command → List String
  | .crawl => ["path", "scheme", "port"]
  | .dns => ["qname"]
  | .scan => ["max-ports"]
  | .flood => ["type", "port"]
  | .wrk => ["url"]
  | .all => []
  | _ => ["port"]

theorem commandRules_congr {net : Network} {target src : PyStr} {given given' : String → PyValue}
    {command : Command} (h : ∀ name ∈ ruleNames command, given name = given' name) :
    commandRules net target src given command = commandRules net target src given' command := by
  unfold commandRules
  cases command with
  | crawl => simp only [h "path" (by simp [ruleNames]), h "scheme" (by simp [ruleNames]),
      h "port" (by simp [ruleNames])]
  | dns => simp only [h "qname" (by simp [ruleNames])]
  | scan => simp only [h "max-ports" (by simp [ruleNames])]
  | flood => simp only [h "type" (by simp [ruleNames]), h "port" (by simp [ruleNames])]
  | wrk => simp only [h "url" (by simp [ruleNames])]
  | all => rfl
  | _ => simp only [h "port" (by simp [ruleNames])]

/-- Only the rules of crafted packets have a source. -/
theorem commandRules_src {net : Network} {target src src' : PyStr} {given : String → PyValue}
    {command : Command}
    (h : command ∉ crafted) :
    commandRules net target src given command = commandRules net target src' given command := by
  cases command <;> first | rfl | exact absurd (by decide) h

namespace Namespace

/-- The value of an option by its name. -/
def given (a : Namespace) (name : String) : PyValue := (a.attrs (destOf name.toList)).getD .none

/-- The rules of a namespace. -/
def rules (a : Namespace) (net : Network) (command : Command) : List Rule :=
  commandRules net (txt (a.given "target")) (txt (a.given "src")) a.given command

end Namespace

/-! ## Arguments -/

section arguments

variable {a : Namespace} {dest : String} {n : Int} {s : PyStr}

theorem attrInt_ok_iff : a.attrInt dest = .ok n ↔ a.attrs dest.toList = some (.int n) := by
  unfold Namespace.attrInt Namespace.attr
  cases a.attrs dest.toList with
  | none =>
      constructor
      · intro h
        cases h
      · intro h
        cases h
  | some v =>
      rw [orRaise_some, ok_bind]
      cases v with
      | int m =>
          constructor
          · intro h
            cases h
            rfl
          · intro h
            cases h
            rfl
      | _ =>
          constructor
          · intro h
            cases h
          · intro h
            cases h

/-- What a sender reads of an `int` option is its number. -/
theorem num_given (name : String) (h : a.attrInt dest = .ok n)
    (hdest : destOf name.toList = dest.toList) : num (a.given name) = n := by
  unfold Namespace.given
  rw [hdest, attrInt_ok_iff.mp h]
  rfl

theorem txt_given (name : String) (h : a.attrStr dest = .ok s)
    (hdest : destOf name.toList = dest.toList) : txt (a.given name) = s := by
  unfold Namespace.attrStr Namespace.attr at h
  obtain ⟨v, hv, h⟩ := bind_ok_iff.mp h
  cases h
  unfold Namespace.given
  rw [hdest, orRaise_ok_iff.mp hv]
  rfl

theorem given_of_attr (name : String) {v : PyValue} (h : a.attr dest = .ok v)
    (hdest : destOf name.toList = dest.toList) : a.given name = v := by
  unfold Namespace.attr at h
  unfold Namespace.given
  rw [hdest, orRaise_ok_iff.mp h]
  rfl

end arguments

/-! ## Senders keep to the rules -/

section senders

variable {net : Network} {host : Host} {a : Namespace} {action : Action}
  {f : Flow} {command : Command}

/-- What this process connects to is a rule without a program. -/
theorem fits_iff_reaches {target : PyStr} {proto : UInt8} {port : Int} :
    Rule.Fits net ⟨none, none, target, proto, some (port, port)⟩ f ↔
      Reaches net target proto port f := by
  have haims : Rule.Aims net ⟨none, none, target, proto, some (port, port)⟩ f.aim ↔
      net.resolves target f.aim.dst ∧ f.aim.proto = proto ∧ ∃ p ∈ f.aim.port, port = p.toNat := by
    rw [aims_iff (nofun : (none : Option Tool) ≠ some .nmap), portsFit_self]
  constructor
  · intro h
    obtain ⟨hdst, hproto, hport⟩ := haims.mp h.aims
    exact ⟨hdst, hproto, hport⟩
  · intro h
    exact fits_of_aims rfl (haims.mpr ⟨h.dst, h.proto, h.port⟩)

/-- A crafted packet on the wire is what its rule says. -/
theorem craftedRule_fits_iff {target src : PyStr} {port : Int} :
    (craftedRule target src port).Fits net f ↔
      ∃ sport : EphemeralPort, OnWire net.resolves src target 6 sport.port port f := by
  have hnone : (none : Option Tool) ≠ some .nmap := nofun
  constructor
  · intro h
    obtain ⟨hsrc, ports, hports, hlow, hhigh⟩ := h.source src rfl
    obtain ⟨hdst, hproto, hrange⟩ := (aims_iff hnone).mp h.aims
    obtain ⟨dport, hmem, hdport⟩ := portsFit_self.mp hrange
    obtain ⟨ports', hports', rfl⟩ := Flow.mem_port.mp hmem
    obtain rfl := Option.some.inj (hports.symm.trans hports')
    exact ⟨⟨_, hlow, hhigh⟩, hsrc, hdst, hproto, ports, hports, rfl, hdport⟩
  · rintro ⟨sport, hsrc, hdst, hproto, ports, hports, hsport, hdport⟩
    have hmem : ports.dport ∈ f.aim.port := Flow.mem_port.mpr ⟨ports, hports, rfl⟩
    refine ⟨?_, (aims_iff hnone).mpr ⟨hdst, hproto, portsFit_self.mpr ⟨_, hmem, hdport⟩⟩⟩
    intro src' hsrc'
    cases hsrc'
    exact ⟨hsrc, ports, hports, hsport ▸ sport.low, hsport ▸ sport.high⟩

/-- A crafted packet that is sent has the addresses and the port of the call. -/
theorem packet_onWire {g : PacketGenerator} {v : Variant} {port : Int}
    (h : (Action.packet g v port).Sends net f) :
    ∃ sport : EphemeralPort, OnWire net.resolves g.srcIp g.dstIp 6 sport.port port f := by
  obtain ⟨sport, ts, stimulus, segments, segment, hmem, h, hwire⟩ := h
  obtain ⟨-, h⟩ := seq_ok_iff.mp h
  obtain ⟨_, -, h⟩ := bind_ok_iff.mp h
  cases h
  obtain rfl := List.mem_singleton.mp hmem
  exact ⟨sport, hwire⟩

theorem fragments_onWire {g : PacketGenerator} {port count : Int}
    (h : (Action.fragments g port count).Sends net f) :
    ∃ sport : EphemeralPort, OnWire net.resolves g.srcIp g.dstIp 6 sport.port port f := by
  obtain ⟨sport, ts, stimulus, frags, frag, hmem, h, hwire⟩ := h
  obtain ⟨-, h⟩ := seq_ok_iff.mp h
  cases h
  obtain ⟨i, -, rfl⟩ := mem_overlappingFragments.mp hmem
  exact ⟨sport, hwire⟩

/-! ### One lemma for each sender -/

/-- Some rule of the command allows the flow. -/
def Permits (host : Host) (net : Network) (rules : List Rule) (f : Flow) : Prop :=
  ∃ rule ∈ rules, rule.Allows host net f

theorem permits_singleton {rule : Rule} (h : rule.Allows host net f) :
    Permits host net [rule] f :=
  ⟨rule, List.mem_singleton_self rule, h⟩

/-- Flows of this process need no program. -/
theorem allows_of_fits {rule : Rule} (htool : rule.tool = none) (h : rule.Fits net f) :
    rule.Allows host net f :=
  ⟨by simp [htool], h⟩

theorem installed_of_which {rule : Rule} {tool : Tool} {binary : PyStr}
    (htool : rule.tool = some tool) (hbinary : host.which tool.name = some binary)
    (h : rule.Fits net f) : rule.Allows host net f := by
  refine ⟨?_, h⟩
  intro tool' htool'
  rw [htool] at htool'
  cases htool'
  rw [hbinary]
  rfl

theorem crawl_permits (h : doCrawl a = .ok action) (hsends : action.Sends net f) :
    Permits host net (a.rules net .crawl) f := by
  unfold doCrawl at h
  obtain ⟨target, htarget, h⟩ := bind_ok_iff.mp h
  obtain ⟨path, hpath, h⟩ := bind_ok_iff.mp h
  obtain ⟨scheme, hscheme, h⟩ := bind_ok_iff.mp h
  obtain ⟨port, hport, h⟩ := bind_ok_iff.mp h
  obtain ⟨url, hurl, h⟩ := bind_ok_iff.mp h
  obtain ⟨_, -, h⟩ := bind_ok_iff.mp h
  obtain ⟨_, -, h⟩ := bind_ok_iff.mp h
  cases h
  obtain ⟨u, name, n, hu, hconnection, hreaches⟩ := hsends
  unfold Namespace.rules commandRules crawlRules
  simp only
  rw [txt_given "target" htarget rfl, txt_given "path" hpath rfl,
    txt_given "scheme" hscheme rfl, given_of_attr "port" hport rfl, hurl, ok_bind, hu]
  simp only
  rw [hconnection]
  exact permits_singleton (allows_of_fits rfl (fits_iff_reaches.mpr hreaches))

/-- The senders of one connection. -/
theorem tcp_permits {target : PyStr} {port : Int} (htarget : a.attrStr "target" = .ok target)
    (hport : a.attrInt "port" = .ok port) (hreaches : Reaches net target 6 port f) :
    Permits host net [tcpRule (txt (a.given "target")) (num (a.given "port"))] f := by
  rw [txt_given "target" htarget rfl, num_given "port" hport rfl]
  exact permits_singleton (allows_of_fits rfl (fits_iff_reaches.mpr hreaches))

theorem dns_permits (h : doDns a = .ok action) (hsends : action.Sends net f) :
    Permits host net (a.rules net .dns) f := by
  unfold doDns at h
  obtain ⟨target, htarget, h⟩ := bind_ok_iff.mp h
  obtain ⟨qname, hqname, h⟩ := bind_ok_iff.mp h
  cases h
  obtain ⟨hpacket, hreaches⟩ := hsends
  unfold Namespace.rules commandRules dnsRules
  simp only
  rw [txt_given "target" htarget rfl, txt_given "qname" hqname rfl, if_pos hpacket]
  exact permits_singleton (allows_of_fits rfl (fits_iff_reaches.mpr hreaches))

/-- The senders of one crafted packet. -/
theorem packet_permits {v : Variant} (h : sendPacket a v = .ok action)
    (hsends : action.Sends net f) : Permits host net
      [craftedRule (txt (a.given "target")) (txt (a.given "src")) (num (a.given "port"))] f := by
  unfold sendPacket at h
  obtain ⟨src, hsrc, h⟩ := bind_ok_iff.mp h
  obtain ⟨target, htarget, h⟩ := bind_ok_iff.mp h
  obtain ⟨port, hport, h⟩ := bind_ok_iff.mp h
  cases h
  rw [txt_given "target" htarget rfl, txt_given "src" hsrc rfl, num_given "port" hport rfl]
  refine permits_singleton (allows_of_fits rfl (craftedRule_fits_iff.mpr ?_))
  exact packet_onWire hsends

theorem frag_permits (h : doFrag a = .ok action) (hsends : action.Sends net f) :
    Permits host net (a.rules net .frag) f := by
  unfold doFrag at h
  obtain ⟨src, hsrc, h⟩ := bind_ok_iff.mp h
  obtain ⟨target, htarget, h⟩ := bind_ok_iff.mp h
  obtain ⟨port, hport, h⟩ := bind_ok_iff.mp h
  obtain ⟨count, -, h⟩ := bind_ok_iff.mp h
  cases h
  unfold Namespace.rules commandRules
  rw [txt_given "target" htarget rfl, txt_given "src" hsrc rfl, num_given "port" hport rfl]
  refine permits_singleton (allows_of_fits rfl (craftedRule_fits_iff.mpr ?_))
  exact fragments_onWire hsends

theorem scan_permits {target : PyStr} (htarget : a.attrStr "target" = .ok target)
    (hhead : target.head? ≠ some '-') (h : doScan host a = .ok action)
    (hsends : action.Sends net f) : Permits host net (a.rules net .scan) f := by
  unfold doScan at h
  rw [htarget, ok_bind] at h
  obtain ⟨scanType, -, h⟩ := bind_ok_iff.mp h
  obtain ⟨maxPorts, hports, h⟩ := bind_ok_iff.mp h
  obtain ⟨cmd, hcmd, h⟩ := bind_ok_iff.mp h
  cases h
  obtain ⟨⟨hlow, hhigh⟩, flag, binary, rate, duration, hflag, hbinary, -, -, rfl⟩ :=
    buildNmapCmd_ok_iff.mp hcmd
  obtain ⟨ports, rfl⟩ := Int.eq_ofNat_of_zero_le (by omega : 0 ≤ maxPorts)
  unfold Namespace.rules commandRules
  rw [txt_given "target" htarget rfl, num_given "max-ports" hports rfl]
  refine permits_singleton (installed_of_which rfl hbinary ?_)
  exact fits_of_scan (snd_mem_of_lookup hflag) hhead hsends

/-- The type that a flood is checked for is its kind. -/
theorem kind_of_validated {type port count rate : PyValue} {limits : WorkloadLimits}
    (h : limits.flood type port count rate = .ok ()) :
    ∃ kind : FloodType, type = .str kind.text := by
  unfold WorkloadLimits.flood at h
  obtain ⟨-, h⟩ := seq_ok_iff.mp h
  obtain ⟨hknown, -⟩ := seq_ok_iff.mp h
  have hknown := raiseIf_ok_iff.mp hknown
  cases type with
  | str name =>
      obtain ⟨kind, rfl⟩ := mem_floodTypes.mp (knownName_iff.mp hknown)
      exact ⟨kind, rfl⟩
  | _ => exact absurd rfl hknown

theorem mem_floodRules {target : PyStr} {kind : FloodType} {port : Int} :
    floodRule target kind port ∈ floodRules target kind.text port := by
  refine List.mem_map.mpr ⟨kind, List.mem_filter.mpr ⟨?_, by simp⟩, rfl⟩
  cases kind <;> simp

theorem flood_permits {target : PyStr} (htarget : a.attrStr "target" = .ok target)
    (hhead : target.head? ≠ some '-') (hvalid : validateArgs a .flood = .ok ())
    (h : doFlood host a = .ok action) (hsends : action.Sends net f) :
    Permits host net (a.rules net .flood) f := by
  unfold doFlood at h
  rw [htarget, ok_bind] at h
  obtain ⟨floodType, htype, h⟩ := bind_ok_iff.mp h
  obtain ⟨port, hport, h⟩ := bind_ok_iff.mp h
  obtain ⟨count, -, h⟩ := bind_ok_iff.mp h
  obtain ⟨rate, -, h⟩ := bind_ok_iff.mp h
  obtain ⟨cmd, hcmd, h⟩ := bind_ok_iff.mp h
  cases h
  -- the check of the arguments knows the type as it stands, the builder in lower case
  obtain ⟨kind, hkind⟩ : ∃ kind : FloodType, floodType = kind.text := by
    unfold validateArgs at hvalid
    obtain ⟨-, hvalid⟩ := seq_ok_iff.mp hvalid
    obtain ⟨type, hattr, hvalid⟩ := bind_ok_iff.mp hvalid
    obtain ⟨_, -, hvalid⟩ := bind_ok_iff.mp hvalid
    obtain ⟨_, -, hvalid⟩ := bind_ok_iff.mp hvalid
    obtain ⟨_, -, hvalid⟩ := bind_ok_iff.mp hvalid
    obtain ⟨kind, rfl⟩ := kind_of_validated hvalid
    refine ⟨kind, ?_⟩
    unfold Namespace.attrStr at htype
    rw [hattr] at htype
    exact (Except.ok.inj htype).symm
  obtain ⟨kind', htext, hrange, -, -, -, binary, packets, hbinary, -, rfl⟩ :=
    buildFlood_ok_iff.mp hcmd
  rw [hkind, Host.lower_text] at htext
  obtain rfl : kind' = kind := by
    cases kind <;> cases kind' <;> first | rfl | exact absurd htext (by decide)
  obtain ⟨n, rfl⟩ : ∃ n : Nat, port = n := by
    refine Int.eq_ofNat_of_zero_le ?_
    have hlow := hrange.1
    split at hlow <;> omega
  unfold Namespace.rules commandRules
  rw [txt_given "target" htarget rfl, txt_given "type" htype rfl, num_given "port" hport rfl, hkind]
  have htool : (floodRule target kind' n).tool = some .hping3 := by cases kind' <;> rfl
  exact ⟨_, mem_floodRules, installed_of_which htool hbinary (fits_of_flood hhead hsends)⟩

/-- The URL that a load is checked with is the one its rules are read off. -/
theorem load_of_loadUrl {target url : PyStr}
    (htarget : a.attrs "target".toList = some (.str target)) (h : loadUrl a = .ok url) :
    (if (a.given "url").truthy then txt (a.given "url")
      else rootUrl (txt (a.given "target"))) = url := by
  unfold loadUrl at h
  obtain ⟨value, hvalue, h⟩ := bind_ok_iff.mp h
  rw [given_of_attr "url" hvalue rfl, txt_given "target" (attrStr_ok htarget) rfl]
  split at h
  · rename_i htruthy
    rw [if_pos htruthy, txt, orRaise_ok_iff.mp h]
    rfl
  · rename_i htruthy
    rw [attr_ok htarget] at h
    rw [if_neg htruthy]
    exact Except.ok.inj h

theorem wrk_permits {target : PyStr} (htarget : a.attrs "target".toList = some (.str target))
    (h : doWrk host a = .ok action) (hsends : action.Sends net f) :
    Permits host net (a.rules net .wrk) f := by
  unfold doWrk at h
  obtain ⟨url, hurl, h⟩ := bind_ok_iff.mp h
  obtain ⟨connections, -, h⟩ := bind_ok_iff.mp h
  obtain ⟨threads, -, h⟩ := bind_ok_iff.mp h
  obtain ⟨duration, -, h⟩ := bind_ok_iff.mp h
  obtain ⟨-, h⟩ := seq_ok_iff.mp h
  obtain ⟨port, hport, h⟩ := bind_ok_iff.mp h
  obtain ⟨cmd, hcmd, h⟩ := bind_ok_iff.mp h
  cases h
  obtain ⟨-, -, binary, c, t, d, hbinary, -, -, -, rfl⟩ := buildWrkCmd_ok_iff.mp hcmd
  have haims := net.wrk_only (wrkCall c t (d ++ ['s']) (head_of_httpPort hport)) hsends
  obtain ⟨name, n, hendpoint, haims⟩ := wrkCall_aims_iff.mp haims
  unfold Namespace.rules commandRules
  simp only
  rw [load_of_loadUrl htarget hurl, loadRules, hendpoint]
  exact permits_singleton (installed_of_which rfl hbinary (fits_of_aims rfl haims))

theorem iperf_permits {target : PyStr} (htarget : a.attrStr "target" = .ok target)
    (hdevice : '%' ∉ target) (h : doIperf host a = .ok action) (hsends : action.Sends net f) :
    Permits host net (a.rules net .iperf) f := by
  unfold doIperf at h
  rw [htarget, ok_bind] at h
  obtain ⟨duration, -, h⟩ := bind_ok_iff.mp h
  obtain ⟨parallel, -, h⟩ := bind_ok_iff.mp h
  obtain ⟨port, hport, h⟩ := bind_ok_iff.mp h
  obtain ⟨hlimits, h⟩ := seq_ok_iff.mp h
  obtain ⟨cmd, hcmd, h⟩ := bind_ok_iff.mp h
  cases h
  obtain ⟨-, binary, t, n, p, hbinary, -, -, hp, rfl⟩ := buildIperf3Cmd_ok_iff.mp hcmd
  obtain ⟨-, rfl⟩ := strInt_ok_iff.mp hp
  obtain ⟨hlow, -⟩ := port_of_iperf hlimits
  obtain ⟨port, rfl⟩ := Int.eq_ofNat_of_zero_le (by omega : 0 ≤ port)
  have haims := net.iperf3_only (iperf3Call hdevice t n port) hsends
  unfold Namespace.rules commandRules
  rw [txt_given "target" htarget rfl, num_given "port" hport rfl]
  exact permits_singleton (installed_of_which rfl hbinary
    (fits_of_aims rfl (iperf3Call_aims_iff.mp haims)))

/-- The programs of the command read its target as one: as no option, and with no device behind
its name. -/
structure TakesTarget (target : PyStr) (command : Command) : Prop where
  operand : command ∈ [.scan, .flood, .all] → target.head? ≠ some '-'
  device : command ∈ [.iperf, .all] → '%' ∉ target

/-- What the function of a command sends, the rules of the command permit. -/
theorem validated_permits {target : PyStr} (htarget : a.attrs "target".toList = some (.str target))
    (htakes : TakesTarget target command) (h : validated host command a = .ok action)
    (hsends : action.Sends net f) : Permits host net (a.rules net command) f := by
  obtain ⟨hvalid, h⟩ := seq_ok_iff.mp h
  cases command with
  | all => cases h
  | http =>
      obtain ⟨_, htarget, h⟩ := bind_ok_iff.mp h
      obtain ⟨_, -, h⟩ := bind_ok_iff.mp h
      obtain ⟨_, hport, h⟩ := bind_ok_iff.mp h
      cases h
      exact tcp_permits htarget hport hsends
  | handshake =>
      obtain ⟨_, htarget, h⟩ := bind_ok_iff.mp h
      obtain ⟨_, hport, h⟩ := bind_ok_iff.mp h
      obtain ⟨_, -, h⟩ := bind_ok_iff.mp h
      cases h
      exact tcp_permits htarget hport hsends
  | eicar =>
      obtain ⟨_, htarget, h⟩ := bind_ok_iff.mp h
      obtain ⟨_, hport, h⟩ := bind_ok_iff.mp h
      cases h
      exact tcp_permits htarget hport hsends
  | gtube =>
      obtain ⟨_, htarget, h⟩ := bind_ok_iff.mp h
      obtain ⟨_, hport, h⟩ := bind_ok_iff.mp h
      cases h
      exact tcp_permits htarget hport hsends
  | crawl => exact crawl_permits h hsends
  | dns => exact dns_permits h hsends
  | scan => exact scan_permits (attrStr_ok htarget) (htakes.operand (by decide)) h hsends
  | flood => exact flood_permits (attrStr_ok htarget) (htakes.operand (by decide)) hvalid h hsends
  | malformed => exact packet_permits h hsends
  | badcsum => exact packet_permits h hsends
  | ttl =>
      obtain ⟨_, -, h⟩ := bind_ok_iff.mp h
      exact packet_permits h hsends
  | frag => exact frag_permits h hsends
  | deny => exact packet_permits h hsends
  | wrk => exact wrk_permits htarget h hsends
  | iperf => exact iperf_permits (attrStr_ok htarget) (htakes.device (by decide)) h hsends

end senders

/-! ## The suite -/

/-- The load of the suite has no URL of its own. -/
theorem load_rules (net : Network) (a : Namespace) (duration : PyValue) :
    (workload a "wrk" .wrk [("url", .none), ("connections", .int 100), ("threads", .int 4),
      ("duration", duration)]).args.rules net .wrk =
        loadRules net (rootUrl (txt (a.given "target"))) := by
  simp [Namespace.rules, commandRules, workload, Namespace.override, setAttrs, update,
    Namespace.given, destOf, PyValue.truthy]

theorem stream_rules (net : Network) (a : Namespace) (duration : PyValue) :
    (workload a "iperf3" .iperf [("port", .int 5201), ("duration", duration),
      ("parallel", .int 4)]).args.rules net .iperf = [streamRule (txt (a.given "target")) 5201] := by
  simp [Namespace.rules, commandRules, workload, Namespace.override, setAttrs, update,
    Namespace.given, destOf, num]

/-- The rules of the suite are those of its workloads. -/
theorem suite_rules (net : Network) (a : Namespace) (duration : PyValue) :
    (suite a duration).flatMap (fun w => w.args.rules net w.func) = a.rules net .all := by
  have hload := load_rules net a duration
  have hstream := stream_rules net a duration
  unfold suite
  rw [List.flatMap_append, List.flatMap_append, List.flatMap_append]
  simp only [List.flatMap_cons, List.flatMap_nil, List.map_cons, List.map_nil]
  rw [show (workload a "wrk" .wrk [("url", .none), ("connections", .int 100), ("threads", .int 4),
      ("duration", duration)]).func = .wrk from rfl, hload,
    show (workload a "iperf3" .iperf [("port", .int 5201), ("duration", duration),
      ("parallel", .int 4)]).func = .iperf from rfl, hstream]
  rfl

/-- No workload of the suite overrides the target, the source or the ceilings. -/
theorem kept_suite {a : Namespace} {duration : PyValue} {w : Workload}
    (h : w ∈ suite a duration) : w.args.attrs "target".toList = a.attrs "target".toList ∧
      w.args.attrs "src".toList = a.attrs "src".toList ∧ w.args.limits = a.limits := by
  simp only [suite, List.map_cons, List.map_nil, List.cons_append, List.nil_append,
    List.mem_cons, List.not_mem_nil, or_false] at h
  rcases h with rfl | rfl | rfl | rfl | rfl | rfl | rfl | rfl | rfl | rfl | rfl | rfl | rfl |
    rfl | rfl | rfl | rfl | rfl
  all_goals simp [workload, Namespace.override, setAttrs, update]

end SrxProbe.Deploy
