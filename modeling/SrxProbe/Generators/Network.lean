import SrxProbe.Collectors.PcapAgree
import SrxProbe.Generators.Endpoint
import SrxProbe.Lib.Getopt

/-!
# The network

What is outside of the generators: the names and addresses that traffic goes to, and the
programs that are run to send it. Both are a parameter; its laws are what the documentation of
the resolver and of these programs says.
-/

namespace SrxProbe.Generators

open SrxProbe.Lib SrxProbe.Collectors.Pcap

/-! ## Flows -/

/-- What the headers of a packet say: IPv4, and the ports of TCP or UDP. -/
structure Flow where
  ip : Ipv4
  ports : Option Ports
  deriving DecidableEq, Repr

/-- Where a flow goes. -/
structure Aim where
  dst : UInt32
  proto : UInt8
  port : Option UInt16
  deriving DecidableEq, Repr

def Flow.aim (f : Flow) : Aim := ⟨f.ip.dst, f.ip.proto, f.ports.map Ports.dport⟩

theorem Flow.mem_port {f : Flow} {port : UInt16} :
    port ∈ f.aim.port ↔ ∃ ports, f.ports = some ports ∧ port = ports.dport := by
  show f.ports.map Ports.dport = some port ↔ _
  rw [Option.map_eq_some_iff]
  exact exists_congr fun ports => and_congr_right fun _ => eq_comm

/-- The text stands for the address. -/
def IsAddress (text : PyStr) (address : UInt32) : Prop :=
  IpAddress.parseV4 text = some address.toNat

/-- An address has one text. -/
theorem IsAddress.text {text : PyStr} {address : UInt32} (h : IsAddress text address) :
    text = addressText address :=
  (IpAddress.str_of_parseV4 h).symm

theorem IsAddress.unique {text : PyStr} {a b : UInt32} (ha : IsAddress text a)
    (hb : IsAddress text b) : a = b :=
  UInt32.toNat_inj.mp (Option.some.inj (ha.symm.trans hb))

/-- The text of an address is digits and dots. -/
theorem IsAddress.notMem {text : PyStr} {address : UInt32} (h : IsAddress text address) {c : Char}
    (hdigit : IpAddress.isAsciiDigit c = false) (hdot : c ≠ '.') : c ∉ text := by
  obtain ⟨d, rest, hcons, hd, hrest, -⟩ := IpAddress.str_v4_eq_cons address.toNat
  have htext : text = d :: rest := h.text.trans hcons
  intro hmem
  rw [htext] at hmem
  have hno : IpAddress.isAsciiDigit c ≠ true := by simp [hdigit]
  rcases List.mem_cons.mp hmem with rfl | hmem
  · exact hno hd
  · rcases hrest c hmem with heq | hother
    · exact hdot heq
    · exact hno hother

/-- An address does not look like an option. -/
theorem IsAddress.head_ne {text : PyStr} {address : UInt32} (h : IsAddress text address) :
    text.head? ≠ some '-' :=
  fun hdash => h.notMem (c := '-') (by decide) (by decide) (List.mem_of_head? hdash)

/-! ## Names -/

/-- What names and addresses resolve to on the host that sends. Case does not matter, nor which
text stands for an address, and an address is itself. -/
structure Resolver where
  resolves : PyStr → UInt32 → Prop
  ignoresCase : ∀ name name' a, lower name = lower name' → resolves name a → resolves name' a
  sameAddress : ∀ name name' ip a, ipAddress name = some ip → ipAddress name' = some ip →
    resolves name a → resolves name' a
  address : ∀ name a b, IsAddress name a → resolves name b → b = a

/-- A target of `nmap` that is one host: an address, or a name, which has a letter and no
netmask. -/
def IsOneHost (target : PyStr) : Prop :=
  (∃ a, IsAddress target a) ∨ (∃ c ∈ target, isAlpha c = true) ∧ '/' ∉ target

/-- A host that needs no brackets in a URL, and has no port behind it. -/
def IsPlainHost (host : PyStr) : Prop := (∀ c ∈ host, isPlain c = true) ∧ ':' ∉ host

/-- A URL of a plain host, perhaps with a port, and with a path behind it. -/
structure PlainUrl (host : PyStr) where
  scheme : PyStr
  port : Option Nat
  path : PyStr
  http : scheme ∈ httpSchemes
  plain : IsPlainHost host
  range : ∀ n ∈ port, 1 ≤ n ∧ n ≤ 65535
  slash : path.head? = some '/'
  visible : ∀ c ∈ path, 32 < c.toNat
  noFragment : '#' ∉ path

namespace PlainUrl

variable {host : PyStr} (url : PlainUrl host)

/-- The port behind the host. -/
def suffix : PyStr := url.port.elim [] fun n => ':' :: intText n

def text : PyStr := url.scheme ++ "://".toList ++ (host ++ url.suffix) ++ url.path

/-- The port of the URL, or that of its scheme. -/
def dport : Int :=
  (url.port.map Int.ofNat).getD (if url.scheme = "https".toList then 443 else 80)

/-- The port is digits. -/
theorem suffix_plain : ∀ c ∈ url.suffix, isPlain c = true := by
  intro c hc
  unfold suffix at hc
  cases hport : url.port with
  | none =>
      rw [hport] at hc
      cases hc
  | some n =>
      obtain ⟨hmin, hmax⟩ := url.range n hport
      rw [hport] at hc
      rcases List.mem_cons.mp hc with rfl | hc
      · decide
      · exact isPlain_of_isAsciiDigit ((port_text (by omega) (by omega)).1 c hc)

/-- The repository splits it as it was put together. -/
theorem urlsplit_text : urlsplit url.text =
    some ⟨url.scheme, host ++ url.suffix, before '?' url.path, after '?' url.path, []⟩ := by
  have hnetloc : IsNetloc (host ++ url.suffix) := by
    refine isNetloc_of_plain fun c hc => ?_
    rcases List.mem_append.mp hc with hc | hc
    · exact url.plain.1 c hc
    · exact url.suffix_plain c hc
  exact urlsplit_http url.http hnetloc url.slash url.visible url.noFragment

/-- And reads its port. -/
theorem httpPort_text {port : Int} (h : httpPort url.text = .ok port) : port = url.dport := by
  have hplain : ∀ c ∈ host ++ url.suffix, isPlain c = true := by
    intro c hc
    rcases List.mem_append.mp hc with hc | hc
    · exact url.plain.1 c hc
    · exact url.suffix_plain c hc
  unfold httpPort at h
  rw [url.urlsplit_text, orRaise_some, ok_bind] at h
  obtain ⟨-, h⟩ := seq_ok_iff.mp h
  obtain ⟨read, hread, h⟩ := bind_ok_iff.mp h
  obtain ⟨hmin, hmax⟩ := boundedInt_ok_iff.mp ⟨port, h⟩
  rw [boundedInt_ok hmin hmax] at h
  have hread := orRaise_ok_iff.mp hread
  have hpair := SplitResult.hostPort_plain (u := ⟨url.scheme, host ++ url.suffix,
    before '?' url.path, after '?' url.path, []⟩) (notMem_of_isPlain hplain (by decide))
    (notMem_of_isPlain hplain (by decide))
  suffices hport : read = url.port.map Int.ofNat by
    rw [← Except.ok.inj h, hport]
    rfl
  cases hport : url.port with
  | none =>
      have hback : after ':' (host ++ url.suffix) = [] := by
        unfold suffix
        rw [hport]
        exact after_of_notMem (by simpa using url.plain.2)
      unfold SplitResult.port at hread
      rw [hpair, hback] at hread
      exact (Option.some.inj hread).symm
  | some n =>
      obtain ⟨hlow, hhigh⟩ := url.range n hport
      have hback : after ':' (host ++ url.suffix) = intText n := by
        unfold suffix
        rw [hport]
        exact after_append url.plain.2
      have hlow' : (1 : Int) ≤ n := by omega
      have hhigh' : (n : Int) ≤ 65535 := by omega
      rw [port_of_hostPort hlow' hhigh' (by rw [hpair, hback])] at hread
      exact (Option.some.inj hread).symm

end PlainUrl

/-! ## Command lines -/

/-- The programs that are run for traffic. -/
inductive Tool
  | nmap
  | hping3
  | wrk
  | iperf3
  deriving DecidableEq, Repr

namespace Tool

def name : Tool → PyStr
  | nmap => "nmap".toList
  | hping3 => "hping3".toList
  | wrk => "wrk".toList
  | iperf3 => "iperf3".toList

/-- Options that take a value, of all that the program has. -/
def valued : Tool → List PyStr
  | nmap => ["-p".toList, "--max-retries".toList, "--max-rate".toList, "--host-timeout".toList]
  | hping3 => ["-c".toList, "-i".toList, "-p".toList]
  | wrk => ["-c".toList, "-t".toList, "-d".toList]
  | iperf3 => ["-c".toList, "-t".toList, "-P".toList, "-p".toList]

/-- Options that stand alone, of all that the program has. -/
def flags : Tool → List PyStr
  | nmap => ["-Pn".toList, "-n".toList, "-sS".toList, "-sX".toList, "-sF".toList, "-sN".toList,
      "-sA".toList]
  | hping3 => ["-S".toList, "--icmp".toList, "--udp".toList]
  | wrk => ["--latency".toList]
  | iperf3 => ["--json".toList]

/-- The arguments, where they are such options and operands. -/
def reads (tool : Tool) (args : List PyStr) : Option (List (PyStr × PyStr) × List PyStr) :=
  getopt tool.valued tool.flags args

end Tool

/-- The option is given as a positive number up to a bound, with text before and behind it. -/
def Counts (options : List (PyStr × PyStr)) (name front back : String) (most : Nat) : Prop :=
  ∃ n : Nat, 0 < n ∧ n ≤ most ∧
    options.lookup name.toList = some (front.toList ++ intText n ++ back.toList)

theorem counts_of_lookup {options : List (PyStr × PyStr)} {name : String} {n most : Nat}
    (hn : 0 < n ∧ n ≤ most) (h : options.lookup name.toList = some (intText n)) :
    Counts options name "" "" most :=
  ⟨n, hn.1, hn.2, h.trans (congrArg some (List.append_nil (intText n)).symm)⟩

section calls

variable (args : List PyStr)

/-- `nmap`, for a range of ports, without the discovery of hosts and the lookup of addresses. -/
structure NmapCall where
  options : List (PyStr × PyStr)
  targets : List PyStr
  low : Nat
  high : Nat
  reads : Tool.nmap.reads args = some (options, targets)
  noDiscovery : ("-Pn".toList, []) ∈ options
  noLookup : ("-n".toList, []) ∈ options
  ports : options.lookup "-p".toList = some (intText low ++ '-' :: intText high)

/-- `hping3`, for one protocol and, but for ICMP, one port. -/
structure Hping3Call where
  options : List (PyStr × PyStr)
  target : PyStr
  port : Nat
  reads : Tool.hping3.reads args = some (options, [target])
  protocol : ("--icmp".toList, []) ∉ options ∨ ("--udp".toList, []) ∉ options
  given : ("--icmp".toList, []) ∈ options ∨ options.lookup "-p".toList = some (intText port)

/-- `wrk`, for a URL. -/
structure WrkCall where
  options : List (PyStr × PyStr)
  url : PyStr
  reads : Tool.wrk.reads args = some (options, [url])

/-- `iperf3`, as the client of a server, with no device behind its name. -/
structure Iperf3Call where
  options : List (PyStr × PyStr)
  server : PyStr
  port : Nat
  reads : Tool.iperf3.reads args = some (options, [])
  client : options.lookup "-c".toList = some server
  noDevice : '%' ∉ server
  given : options.lookup "-p".toList = some (intText port)

end calls

section aims

variable {args : List PyStr}

structure NmapCall.Aims (specifies : PyStr → UInt32 → Prop) (call : NmapCall args) (aim : Aim) :
    Prop where
  dst : ∃ target ∈ call.targets, specifies target aim.dst
  proto : aim.proto = 6
  port : ∃ port ∈ aim.port, call.low ≤ port.toNat ∧ port.toNat ≤ call.high

/-- The types of scan, all of TCP. -/
def scanTypes : List PyStr :=
  ["-sS".toList, "-sX".toList, "-sF".toList, "-sN".toList, "-sA".toList]

/-- The rest of the arguments is as it has to be: one type of scan, and numbers. -/
structure NmapCall.Runs (call : NmapCall args) : Prop where
  oneScan : ∃ flag, (call.options.map Prod.fst).filter (· ∈ scanTypes) = [flag]
  retries : Counts call.options "--max-retries" "" "" 1000000
  rate : Counts call.options "--max-rate" "" "" 1000000
  timeout : Counts call.options "--host-timeout" "" "s" 1000000
  high : call.high ≤ 65535

structure Hping3Call.Aims (resolves : PyStr → UInt32 → Prop) (call : Hping3Call args)
    (aim : Aim) : Prop where
  dst : resolves call.target aim.dst
  sent : if ("--icmp".toList, []) ∈ call.options then aim.proto = 1 ∧ aim.port = none
    else aim.proto = (if ("--udp".toList, []) ∈ call.options then 17 else 6) ∧
      ∃ port ∈ aim.port, call.port = port.toNat

structure Hping3Call.Runs (call : Hping3Call args) : Prop where
  count : Counts call.options "-c" "" "" 1000000
  interval : Counts call.options "-i" "u" "" 1000000

structure WrkCall.Aims (resolves : PyStr → UInt32 → Prop)
    (endpoint : PyStr → Option (PyStr × Int)) (call : WrkCall args) (aim : Aim) : Prop where
  dst : ∃ host port, endpoint call.url = some (host, port) ∧ resolves host aim.dst ∧
    ∃ dport ∈ aim.port, port = dport.toNat
  proto : aim.proto = 6

structure WrkCall.Runs (call : WrkCall args) : Prop where
  threads : ∃ connections threads : Nat, 0 < threads ∧ threads ≤ connections ∧
    connections ≤ 1000000 ∧ call.options.lookup "-c".toList = some (intText connections) ∧
    call.options.lookup "-t".toList = some (intText threads)
  duration : Counts call.options "-d" "" "s" 1000000

structure Iperf3Call.Aims (resolves : PyStr → UInt32 → Prop) (call : Iperf3Call args)
    (aim : Aim) : Prop where
  dst : resolves call.server aim.dst
  proto : aim.proto = 6
  port : ∃ port ∈ aim.port, call.port = port.toNat

structure Iperf3Call.Runs (call : Iperf3Call args) : Prop where
  duration : Counts call.options "-t" "" "" 86400
  parallel : Counts call.options "-P" "" "" 128

end aims

/-! ## The network -/

/-- The names of a host, and its programs. What a program sends for its arguments is known only
for those that its documentation is plain about: no law says anything of others. -/
structure Network extends Resolver where
  /-- the flows that a program can send, run with this command line and the rights that raw
  packets need, but for looking up names -/
  sends : Tool → List PyStr → Flow → Prop
  /-- the addresses of a target of `nmap`: a host, a network, or ranges and lists of octets -/
  specifies : PyStr → UInt32 → Prop
  /-- the host and the port that `wrk` reads from a URL, if it takes it -/
  endpoint : PyStr → Option (PyStr × Int)
  /-- `nmap`: in the simplest case a target is an address or a hostname -/
  oneHost : ∀ {target a}, IsOneHost target → specifies target a → resolves target a
  /-- `nmap`: what is no option is a target, the scan types are of TCP, `-p` scans only the
  ports of its range, and with `-Pn` and `-n` nothing else is sent -/
  nmap_only : ∀ {binary args f} (call : NmapCall args), sends .nmap (binary :: args) f →
    call.Aims specifies f.aim
  /-- `nmap`: every port of the range is probed at every target -/
  nmap_all : ∀ {binary args aim} (call : NmapCall args), call.Runs → call.Aims specifies aim →
    ∃ f, sends .nmap (binary :: args) f ∧ f.aim = aim
  /-- `hping3`: TCP by default, `--icmp` and `--udp` select the protocol, `-p` the port -/
  hping3_only : ∀ {binary args f} (call : Hping3Call args), sends .hping3 (binary :: args) f →
    call.Aims resolves f.aim
  /-- `hping3`: `-c` packets are sent to the target -/
  hping3_all : ∀ {binary args aim} (call : Hping3Call args), call.Runs →
    call.Aims resolves aim → ∃ f, sends .hping3 (binary :: args) f ∧ f.aim = aim
  /-- `wrk`: every connection is one to the host and the port of the URL -/
  wrk_only : ∀ {binary args f} (call : WrkCall args), sends .wrk (binary :: args) f →
    call.Aims resolves endpoint f.aim
  /-- `wrk`: the connections are opened -/
  wrk_all : ∀ {binary args aim} (call : WrkCall args), call.Runs →
    call.Aims resolves endpoint aim → ∃ f, sends .wrk (binary :: args) f ∧ f.aim = aim
  /-- a URL: the host is what stands behind `://`, and the port is the one given or the default
  of the scheme -/
  endpoint_eq : ∀ {host host' port'} (url : PlainUrl host),
    endpoint url.text = some (host', port') → host' = host ∧ port' = url.dport
  /-- `iperf3`: the client connects to the server of `-c` at the port of `-p`, by TCP unless it
  is told otherwise -/
  iperf3_only : ∀ {binary args f} (call : Iperf3Call args), sends .iperf3 (binary :: args) f →
    call.Aims resolves f.aim
  /-- `iperf3`: the connections are opened -/
  iperf3_all : ∀ {binary args aim} (call : Iperf3Call args), call.Runs →
    call.Aims resolves aim → ∃ f, sends .iperf3 (binary :: args) f ∧ f.aim = aim

namespace Network

variable {net : Network}

/-- The addresses that a program, or this process, takes a target for. -/
def takes (net : Network) (tool : Option Tool) : PyStr → UInt32 → Prop :=
  if tool = some .nmap then net.specifies else net.resolves

theorem takes_of_ne {tool : Option Tool} (h : tool ≠ some .nmap) : net.takes tool = net.resolves :=
  if_neg h

/-- `nmap` takes an address for itself. -/
theorem specifies_address {name : PyStr} {a b : UInt32} (h : IsAddress name a)
    (hb : net.specifies name b) : b = a :=
  net.address name a b h (net.oneHost (.inl ⟨a, h⟩) hb)

end Network

/-! ## Addresses only -/

/-- A text that is an address in lower case is that address. -/
theorem isAddress_of_lower {name name' : PyStr} {a : UInt32} (heq : lower name = lower name')
    (h : IsAddress name a) : IsAddress name' a := by
  have hstr := IpAddress.str_of_parseV4 h
  have hlower : lower name' = IpAddress.str (.v4 a.toNat) := by
    rw [← heq, ← hstr, lower_str_v4]
  have hnoUpper : ∀ c ∈ name', ¬ inRange 'A' 'Z' c = true := by
    intro c hc hupper
    -- its lower case letter would be in the address
    have hmem : Char.ofNat (c.toNat + 32) ∈ lower name' :=
      List.mem_map.mpr ⟨c, hc, by rw [if_pos hupper]⟩
    have hletter := inRange_iff.mp (isLower_lower hupper)
    have ha : 'a'.toNat = 97 := by decide
    obtain ⟨d, rest, hcons, hd, hrest, -⟩ := IpAddress.str_v4_eq_cons a.toNat
    have hdigit : ∀ c, IpAddress.isAsciiDigit c = true → c.toNat < 97 := by
      intro c hc
      obtain ⟨-, hhigh⟩ := inRange_iff.mp (hc : inRange '0' '9' c = true)
      have h9 : '9'.toNat = 57 := by decide
      omega
    rw [hlower, hcons] at hmem
    rcases List.mem_cons.mp hmem with heq | hmem
    · have := hdigit _ hd
      rw [← heq] at this
      omega
    · rcases hrest _ hmem with hdot | hmem
      · have hdot' : '.'.toNat = 46 := by decide
        rw [hdot] at hletter
        omega
      · have := hdigit _ hmem
        omega
  have hname : name' = name := by
    rw [← lower_of_noUpper hnoUpper, hlower, hstr]
  rwa [hname]

/-- Only addresses resolve, to themselves. -/
def Resolver.addresses : Resolver where
  resolves := IsAddress
  ignoresCase _ _ _ := isAddress_of_lower
  sameAddress := by
    intro name name' ip a hname hname' h
    obtain rfl : ip = .v4 a.toNat := by
      unfold ipAddress at hname
      rw [h] at hname
      exact (Option.some.inj hname).symm
    unfold ipAddress at hname'
    split at hname'
    · rename_i n hparse
      cases hname'
      exact hparse
    · obtain ⟨_, -, hv6⟩ := Option.map_eq_some_iff.mp hname'
      cases hv6
  address _ _ _ ha hb := hb.unique ha

section documented

variable {args : List PyStr} {aim : Aim}

/-- Numbers in a row can be told from each other. -/
theorem intText_dash_inj {n m n' m' : Nat}
    (h : intText n ++ '-' :: intText m = intText n' ++ '-' :: intText m') : n = n' ∧ m = m' := by
  have hdash : ∀ n : Nat, '-' ∉ intText n := by
    intro n
    rw [intText_natCast]
    exact notMem_toDigits (by decide)
  have hbefore := congrArg (before '-') h
  have hafter := congrArg (after '-') h
  rw [before_append (hdash n), before_append (hdash n')] at hbefore
  rw [after_append (hdash n), after_append (hdash n')] at hafter
  exact ⟨intText_injective hbefore, intText_injective hafter⟩

/-- The arguments determine what is asked for. -/
theorem NmapCall.aims_congr {specifies : PyStr → UInt32 → Prop} (call call' : NmapCall args)
    (h : call.Aims specifies aim) : call'.Aims specifies aim := by
  obtain ⟨hoptions, htargets⟩ := Prod.mk.inj (Option.some.inj (call.reads.symm.trans call'.reads))
  have hports := call.ports
  rw [hoptions, call'.ports, Option.some.injEq] at hports
  obtain ⟨hlow, hhigh⟩ := intText_dash_inj hports
  exact ⟨htargets ▸ h.dst, h.proto, hlow ▸ hhigh ▸ h.port⟩

theorem Hping3Call.aims_congr {resolves : PyStr → UInt32 → Prop} (call call' : Hping3Call args)
    (h : call.Aims resolves aim) : call'.Aims resolves aim := by
  obtain ⟨hoptions, htargets⟩ := Prod.mk.inj (Option.some.inj (call.reads.symm.trans call'.reads))
  obtain ⟨htarget, -⟩ := List.cons.inj htargets
  have hsent := h.sent
  refine ⟨htarget ▸ h.dst, ?_⟩
  rw [← hoptions]
  by_cases hicmp : ("--icmp".toList, []) ∈ call.options
  · rw [if_pos hicmp] at hsent ⊢
    exact hsent
  · have hport := call.given.resolve_left hicmp
    rw [hoptions, call'.given.resolve_left (hoptions ▸ hicmp), Option.some.injEq] at hport
    rw [if_neg hicmp] at hsent ⊢
    rw [intText_injective hport]
    exact hsent

theorem Iperf3Call.aims_congr {resolves : PyStr → UInt32 → Prop} (call call' : Iperf3Call args)
    (h : call.Aims resolves aim) : call'.Aims resolves aim := by
  obtain ⟨hoptions, -⟩ := Prod.mk.inj (Option.some.inj (call.reads.symm.trans call'.reads))
  have hserver := call.client
  have hport := call.given
  rw [hoptions, call'.client, Option.some.injEq] at hserver
  rw [hoptions, call'.given, Option.some.injEq] at hport
  exact ⟨hserver ▸ h.dst, h.proto, intText_injective hport ▸ h.port⟩

/-- A flow with an aim. -/
def Aim.flow (aim : Aim) : Flow := ⟨⟨0, aim.dst, aim.proto⟩, aim.port.map (Ports.mk 0)⟩

theorem Aim.aim_flow (aim : Aim) : aim.flow.aim = aim := by
  unfold Aim.flow Flow.aim
  simp only [Option.map_map]
  congr 1
  cases aim.port <;> rfl

/-- Only addresses resolve, and the programs send what they are asked for; `wrk` takes no URL. -/
def Network.addresses : Network where
  toResolver := Resolver.addresses
  sends tool cmd f :=
    match tool with
    | .nmap => ∃ call : NmapCall cmd.tail, call.Aims IsAddress f.aim
    | .hping3 => ∃ call : Hping3Call cmd.tail, call.Aims IsAddress f.aim
    | .wrk => False
    | .iperf3 => ∃ call : Iperf3Call cmd.tail, call.Aims IsAddress f.aim
  specifies := IsAddress
  endpoint _ := none
  oneHost _ h := h
  nmap_only call' := fun ⟨call, h⟩ => call.aims_congr call' h
  nmap_all call _ h := ⟨_, ⟨call, (Aim.aim_flow _).symm ▸ h⟩, Aim.aim_flow _⟩
  hping3_only call' := fun ⟨call, h⟩ => call.aims_congr call' h
  hping3_all call _ h := ⟨_, ⟨call, (Aim.aim_flow _).symm ▸ h⟩, Aim.aim_flow _⟩
  wrk_only _ := nofun
  wrk_all _ _ h := by
    obtain ⟨_, _, hendpoint, -⟩ := h.dst
    cases hendpoint
  endpoint_eq _ := nofun
  iperf3_only call' := fun ⟨call, h⟩ => call.aims_congr call' h
  iperf3_all call _ h := ⟨_, ⟨call, (Aim.aim_flow _).symm ▸ h⟩, Aim.aim_flow _⟩

end documented

end SrxProbe.Generators
