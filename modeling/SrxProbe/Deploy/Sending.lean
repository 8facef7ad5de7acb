import SrxProbe.Deploy.MainSafety

/-!
# What the rules allow is sent

The other direction of confinement, for arguments within the default ceilings: once the arguments
of a command pass the preflight, its sender runs, and for every flow that the rules of the command
allow it can send one that goes where it goes.
-/

namespace SrxProbe.Deploy

open SrxProbe.Lib SrxProbe.Generators

/-- Every option of the command has a value, an `int` option that has a default a number. -/
structure Typed (a : Namespace) (command : Command) : Prop where
  set : ∀ option ∈ options command, ∃ v, a.attrs option.dest = some v
  number : ∀ option ∈ options command, option.type ≠ .str → option.default ≠ .none →
    ∃ n, a.attrs option.dest = some (.int n)

/-- What is called sends a flow that goes where this one goes. -/
def Action.SendsLike (net : Network) (action : Action) (f : Flow) : Prop :=
  ∃ f', action.Sends net f' ∧ f'.aim = f.aim

/-- A sender runs, and what it calls sends such a flow. -/
def Causes (net : Network) (sent : Except PyErr Action) (f : Flow) : Prop :=
  ∃ action, sent = .ok action ∧ action.SendsLike net f

section reading

variable {a : Namespace} {command : Command}

theorem Typed.attrInt (h : Typed a command) (name dest : String) (d : Int)
    (hmem : intOption name (.int d) ∈ options command) (hdest : destOf name.toList = dest.toList) :
    ∃ n, a.attrInt dest = .ok n := by
  obtain ⟨n, hn⟩ := h.number _ hmem (by simp [intOption]) (by simp [intOption])
  exact ⟨n, attrInt_ok_iff.mpr (hdest ▸ hn)⟩

theorem attr_of_attrInt {dest : String} {n : Int} (h : a.attrInt dest = .ok n) :
    a.attr dest = .ok (.int n) :=
  attr_ok (attrInt_ok_iff.mp h)

theorem Typed.duration (h : Typed a command) (hmem : durationOption ∈ options command) :
    ∃ n, a.attrInt "duration" = .ok n := by
  obtain ⟨n, hn⟩ := h.number _ hmem (by decide) nofun
  exact ⟨n, attrInt_ok_iff.mpr hn⟩

theorem Typed.attrStr (h : Typed a command) (option : OptionSpec) (dest : String)
    (hmem : option ∈ options command) (hdest : option.dest = dest.toList) :
    ∃ s, a.attrStr dest = .ok s := by
  obtain ⟨v, hv⟩ := h.set option hmem
  unfold Namespace.attrStr
  rw [attr_ok (hdest ▸ hv)]
  exact ⟨_, rfl⟩

end reading

section senders

variable {net : Network} {host : Host} {a : Namespace} {command : Command} {f : Flow}
  {target src : PyStr}

theorem causes_of_sends {sent : Except PyErr Action} (action : Action) (h : sent = .ok action)
    (hsends : action.Sends net f) : Causes net sent f :=
  ⟨action, h, f, hsends, rfl⟩

theorem fits_of_permits {rule : Rule} (h : Permits host net [rule] f) :
    rule.Allows host net f := by
  obtain ⟨rule', hmem, hallows⟩ := h
  obtain rfl := List.mem_singleton.mp hmem
  exact hallows

/-- The numbers of a load that passes the default ceilings. -/
theorem wrk_bounds {connections threads duration : Int} (hlimits : a.limitsOf = defaultLimits)
    (h : a.limitsOf.wrk (.int connections) (.int threads) (.int duration) = .ok ()) :
    ∃ c t d : Nat, connections = c ∧ threads = t ∧ duration = d ∧ 0 < t ∧ t ≤ c ∧ c ≤ 10000 ∧
      0 < d ∧ d ≤ 300 := by
  rw [hlimits] at h
  unfold WorkloadLimits.wrk at h
  simp only [boundedInt_bind_ok_iff] at h
  obtain ⟨hc, ht, hd, -⟩ := h
  simp only [defaultLimits] at hc ht hd
  obtain ⟨c, rfl⟩ := Int.eq_ofNat_of_zero_le (by omega : 0 ≤ connections)
  obtain ⟨t, rfl⟩ := Int.eq_ofNat_of_zero_le (by omega : 0 ≤ threads)
  obtain ⟨d, rfl⟩ := Int.eq_ofNat_of_zero_le (by omega : 0 ≤ duration)
  exact ⟨c, t, d, rfl, rfl, rfl, by omega, by omega, by omega, by omega, by omega⟩

theorem iperf_bounds {duration parallel port : Int} (hlimits : a.limitsOf = defaultLimits)
    (h : a.limitsOf.iperf (.int duration) (.int parallel) (.int port) = .ok ()) :
    ∃ d p n : Nat, duration = d ∧ parallel = p ∧ port = n ∧ 0 < d ∧ d ≤ 300 ∧ 0 < p ∧ p ≤ 32 ∧
      n ≤ 65535 := by
  obtain ⟨hmin, hmax⟩ := port_of_iperf h
  rw [hlimits] at h
  unfold WorkloadLimits.iperf at h
  simp only [boundedInt_bind_ok_iff] at h
  obtain ⟨hd, hp, -⟩ := h
  simp only [defaultLimits] at hd hp
  obtain ⟨d, rfl⟩ := Int.eq_ofNat_of_zero_le (by omega : 0 ≤ duration)
  obtain ⟨p, rfl⟩ := Int.eq_ofNat_of_zero_le (by omega : 0 ≤ parallel)
  obtain ⟨n, rfl⟩ := Int.eq_ofNat_of_zero_le (by omega : 0 ≤ port)
  exact ⟨d, p, n, rfl, rfl, rfl, by omega, by omega, by omega, by omega, by omega⟩

/-- A small number is written as it is. -/
theorem strInt_nat {n : Nat} (h : n ≤ 1000000) : strInt n = .ok (intText n) :=
  strInt_small (by omega) (by omega)

/-! ### One lemma for each sender -/

theorem crawl_sends (htyped : Typed a .crawl)
    (hvalid : validateArgs a .crawl = .ok ()) (h : Permits host net (a.rules net .crawl) f) :
    Causes net (doCrawl a) f := by
  obtain ⟨bytes, hbytes⟩ := htyped.attrInt "max-bytes" "max_bytes" 1048576
    (by simp [options]) rfl
  obtain ⟨timeout, htimeout⟩ := htyped.attrInt "timeout" "timeout" 10
    (by simp [options]) rfl
  -- the check of the arguments puts the URL together as the sender does
  unfold validateArgs at hvalid
  obtain ⟨-, hvalid⟩ := seq_ok_iff.mp hvalid
  obtain ⟨_, -, hvalid⟩ := bind_ok_iff.mp hvalid
  obtain ⟨_, -, hvalid⟩ := bind_ok_iff.mp hvalid
  obtain ⟨-, hvalid⟩ := seq_ok_iff.mp hvalid
  obtain ⟨target', htarget', hvalid⟩ := bind_ok_iff.mp hvalid
  obtain ⟨path, hpath, hvalid⟩ := bind_ok_iff.mp hvalid
  obtain ⟨scheme, hscheme, hvalid⟩ := bind_ok_iff.mp hvalid
  obtain ⟨port, hport, hvalid⟩ := bind_ok_iff.mp hvalid
  obtain ⟨url, hurl, -⟩ := bind_ok_iff.mp hvalid
  obtain ⟨rule, hrule, -, hfits⟩ := h
  unfold Namespace.rules commandRules crawlRules at hrule
  simp only at hrule
  rw [txt_given "target" htarget' rfl, txt_given "path" hpath rfl,
    txt_given "scheme" hscheme rfl, given_of_attr "port" hport rfl, hurl, ok_bind] at hrule
  cases hu : validateUrl url with
  | error e =>
      rw [hu] at hrule
      cases hrule
  | ok u =>
      rw [hu] at hrule
      obtain ⟨⟨name, n⟩, hconnection, rfl⟩ := List.mem_map.mp hrule
      refine causes_of_sends (.crawlPage url bytes timeout) ?_ ⟨u, name, n, hu,
        Option.mem_toList.mp hconnection, fits_iff_reaches.mp hfits⟩
      unfold doCrawl
      rw [htarget', hpath, hscheme, hport, hbytes, htimeout]
      simp only [ok_bind]
      rw [hurl]
      rfl

/-- The senders of one connection. -/
theorem reaches_of_permits {port : Int} (htarget : a.attrs "target".toList = some (.str target))
    (hport : a.attrInt "port" = .ok port)
    (h : Permits host net [tcpRule (txt (a.given "target")) (num (a.given "port"))] f) :
    Reaches net target 6 port f := by
  rw [txt_given "target" (attrStr_ok htarget) rfl, num_given "port" hport rfl] at h
  exact fits_iff_reaches.mp (fits_of_permits h).fits

theorem dns_sends (htyped : Typed a .dns)
    (htarget : a.attrs "target".toList = some (.str target))
    (h : Permits host net (a.rules net .dns) f) : Causes net (doDns a) f := by
  obtain ⟨qname, hqname⟩ := htyped.attrStr (strOption "qname" (.str "probe.lab".toList))
    "qname" (by simp [options]) rfl
  unfold Namespace.rules commandRules dnsRules at h
  simp only at h
  rw [txt_given "target" (attrStr_ok htarget) rfl, txt_given "qname" hqname rfl] at h
  split at h
  · rename_i hpacket
    have hreaches := fits_iff_reaches.mp (fits_of_permits h).fits
    refine causes_of_sends (.dnsQuery target qname) ?_ ⟨hpacket, hreaches⟩
    unfold doDns
    rw [attrStr_ok htarget, hqname]
    rfl
  · obtain ⟨_, hmem, -⟩ := h
    cases hmem

/-- The senders of one crafted packet: what it is named by has to have a text. -/
theorem packet_sends {v : Variant} {port : Int}
    (htarget : a.attrs "target".toList = some (.str target))
    (hsrc : a.attrs "src".toList = some (.str src)) (hport : a.attrInt "port" = .ok port)
    (hclass : ∃ payloadClass, v.payloadClass = .ok payloadClass)
    (h : Permits host net
      [craftedRule (txt (a.given "target")) (txt (a.given "src")) (num (a.given "port"))] f) :
    Causes net (sendPacket a v) f := by
  obtain ⟨payloadClass, hclass⟩ := hclass
  rw [txt_given "target" (attrStr_ok htarget) rfl, txt_given "src" (attrStr_ok hsrc) rfl,
    num_given "port" hport rfl] at h
  obtain ⟨sport, hwire⟩ := craftedRule_fits_iff.mp (fits_of_permits h).fits
  refine causes_of_sends (.packet ⟨src, target⟩ v port) ?_ ?_
  · unfold sendPacket
    rw [attrStr_ok hsrc, attrStr_ok htarget, hport]
    rfl
  · have hsingle : ∃ stimulus, PacketGenerator.single ⟨src, target⟩ v port sport .nonfinite
        (some (.ok ())) = .ok (stimulus,
          [⟨src, target, v.ttl, sport.port, port, v.flags, v.chksum⟩]) := by
      unfold PacketGenerator.single
      rw [hclass]
      exact ⟨_, rfl⟩
    obtain ⟨stimulus, hsingle⟩ := hsingle
    exact ⟨sport, .nonfinite, stimulus, _, _, List.mem_cons_self, hsingle, hwire⟩

/-- The first of the fragments has the headers of the packet. -/
theorem frag_sends {port count : Int} (htarget : a.attrs "target".toList = some (.str target))
    (hsrc : a.attrs "src".toList = some (.str src)) (hport : a.attrInt "port" = .ok port)
    (hcount : a.attrInt "count" = .ok count) (hpos : 1 ≤ count)
    (h : Permits host net (a.rules net .frag) f) : Causes net (doFrag a) f := by
  unfold Namespace.rules commandRules at h
  rw [txt_given "target" (attrStr_ok htarget) rfl, txt_given "src" (attrStr_ok hsrc) rfl,
    num_given "port" hport rfl] at h
  obtain ⟨sport, hwire⟩ := craftedRule_fits_iff.mp (fits_of_permits h).fits
  refine causes_of_sends (.fragments ⟨src, target⟩ port count) ?_ ?_
  · unfold doFrag
    rw [attrStr_ok hsrc, attrStr_ok htarget, hport, hcount]
    rfl
  · exact ⟨sport, .nonfinite, _, _, fragment src target sport.port port count 0,
      mem_overlappingFragments.mpr ⟨0, by omega, rfl⟩, rfl, hwire⟩

/-- The flag of a scan of a known type. -/
theorem lookup_scanType (host : Host) {type : PyStr} (h : type ∈ nmapScanFlags.map Prod.fst) :
    ∃ flag, nmapScanFlags.lookup (host.lower type) = some flag := by
  simp only [nmapScanFlags, List.map_cons, List.map_nil, List.mem_cons, List.not_mem_nil,
    or_false] at h
  rcases h with rfl | rfl | rfl | rfl | rfl
  all_goals exact ⟨_, rfl⟩

theorem scan_sends (htyped : Typed a .scan) (hlimits : a.limitsOf = defaultLimits)
    (htarget : a.attrs "target".toList = some (.str target)) (hhead : target.head? ≠ some '-')
    (htype : ∃ type ∈ nmapScanFlags.map Prod.fst, a.attrs "type".toList = some (.str type))
    (hvalid : validateArgs a .scan = .ok ()) (h : Permits host net (a.rules net .scan) f) :
    Causes net (doScan host a) f := by
  obtain ⟨type, hknown, htype⟩ := htype
  obtain ⟨flag, hflag⟩ := lookup_scanType host hknown
  obtain ⟨n, hn⟩ := htyped.attrInt "max-ports" "max_ports" 1024 (by simp [options]) rfl
  unfold validateArgs at hvalid
  obtain ⟨-, hvalid⟩ := seq_ok_iff.mp hvalid
  obtain ⟨v, hv, hscan⟩ := bind_ok_iff.mp hvalid
  obtain rfl := Except.ok.inj ((attr_of_attrInt hn).symm.trans hv)
  obtain ⟨hbounds, -⟩ := boundedInt_bind_ok_iff.mp hscan
  have hceiling := a.limitsOf.ports
  unfold Namespace.rules commandRules at h
  rw [txt_given "target" (attrStr_ok htarget) rfl, num_given "max-ports" hn rfl] at h
  obtain ⟨hinstalled, hfits⟩ := fits_of_permits h
  obtain ⟨binary, hbinary⟩ := Option.isSome_iff_exists.mp (hinstalled _ rfl)
  have hrate : strInt a.limitsOf.maxRatePps = .ok (intText (1000 : Nat)) := by
    rw [hlimits]
    exact strInt_nat (by decide)
  have hduration : strInt a.limitsOf.maxDurationS = .ok (intText (300 : Nat)) := by
    rw [hlimits]
    exact strInt_nat (by decide)
  obtain ⟨ports, rfl⟩ := Int.eq_ofNat_of_zero_le (by omega : 0 ≤ n)
  obtain ⟨cmd, hcmd, hsends⟩ : ∃ cmd, (buildNmapCmd host a.limitsOf target type ports).result =
      .ok cmd ∧ ∃ f', net.sends .nmap cmd f' ∧ f'.aim = f.aim :=
    ⟨_, buildNmapCmd_ok_iff.mpr ⟨hbounds, flag, binary, _, _, hflag, hbinary, hrate, hduration,
      rfl⟩, sends_of_scan (snd_mem_of_lookup hflag) hhead (by decide) (by decide) (by omega)
        hfits.aims⟩
  refine ⟨.run .nmap cmd (a.limitsOf.maxDurationS + 30), ?_, hsends⟩
  unfold doScan
  rw [attrStr_ok htarget, attrStr_ok htype, hn]
  simp only [ok_bind]
  rw [hcmd]
  rfl

theorem flood_sends (htyped : Typed a .flood) (hlimits : a.limitsOf = defaultLimits)
    (htarget : a.attrs "target".toList = some (.str target)) (hhead : target.head? ≠ some '-')
    (hvalid : validateArgs a .flood = .ok ()) (h : Permits host net (a.rules net .flood) f) :
    Causes net (doFlood host a) f := by
  obtain ⟨port, hport⟩ := htyped.attrInt "port" "port" 80 (by simp [options]) rfl
  obtain ⟨count, hcount⟩ := htyped.attrInt "count" "count" 2000 (by simp [options]) rfl
  obtain ⟨rate, hrate⟩ := htyped.attrInt "rate" "rate" 500 (by simp [options]) rfl
  unfold validateArgs at hvalid
  obtain ⟨-, hvalid⟩ := seq_ok_iff.mp hvalid
  obtain ⟨type, htype, hvalid⟩ := bind_ok_iff.mp hvalid
  rw [attr_of_attrInt hport, attr_of_attrInt hcount, attr_of_attrInt hrate] at hvalid
  obtain ⟨kind, rfl⟩ := kind_of_validated hvalid
  obtain ⟨kind', htext, hrange, hpackets, hpps, hpace⟩ := flood_ok_iff.mp hvalid
  have htype : a.attrs "type".toList = some (.str kind.text) := orRaise_ok_iff.mp htype
  unfold Namespace.rules commandRules at h
  rw [txt_given "target" (attrStr_ok htarget) rfl, txt_given "type" (attrStr_ok htype) rfl,
    num_given "port" hport rfl] at h
  obtain ⟨rule, hrule, hinstalled, hfits⟩ := h
  obtain ⟨kind'', hmem, rfl⟩ := List.mem_map.mp hrule
  obtain ⟨-, htext''⟩ := List.mem_filter.mp hmem
  -- the three names of the kind are one
  have hinj : ∀ k k' : FloodType, k.text = k'.text → k = k' := by
    intro k k' heq
    cases k <;> cases k' <;> first | rfl | exact absurd heq (by decide)
  obtain rfl := hinj _ _ htext
  obtain rfl := hinj _ _ (of_decide_eq_true htext'')
  have htool : (floodRule target kind'' port).tool = some .hping3 := by
    cases kind'' <;> rfl
  obtain ⟨binary, hbinary⟩ := Option.isSome_iff_exists.mp (hinstalled _ htool)
  have hsmall : count ≤ 10000 := by
    have hmax : count ≤ defaultLimits.maxPackets := hlimits ▸ hpackets.2
    exact hmax
  obtain ⟨packets, rfl⟩ := Int.eq_ofNat_of_zero_le (by omega : 0 ≤ count)
  obtain ⟨n, rfl⟩ : ∃ n : Nat, port = n := by
    refine Int.eq_ofNat_of_zero_le ?_
    have hlow := hrange.1
    split at hlow <;> omega
  -- the pause of the slowest flood is a second
  obtain ⟨hpos, -, hslow⟩ := intervalUs_bounds hpps.1
  have hle : (WorkloadLimits.intervalUs rate - 1) * 1 ≤
      (WorkloadLimits.intervalUs rate - 1) * rate :=
    Int.mul_le_mul_of_nonneg_left hpps.1 (by omega)
  obtain ⟨pause, hpause⟩ := Int.eq_ofNat_of_zero_le
    (by omega : 0 ≤ WorkloadLimits.intervalUs rate)
  obtain ⟨cmd, hcmd, hsends⟩ : ∃ cmd, (buildHping3FloodCmd host a.limitsOf target kind''.text n
      packets rate).result = .ok cmd ∧ ∃ f', net.sends .hping3 cmd f' ∧ f'.aim = f.aim :=
    ⟨_, buildFlood_ok_iff.mpr ⟨kind'', Host.lower_text, hrange, hpackets, hpps, hpace, binary, _,
      hbinary, strInt_nat (by omega), by rw [hpause]⟩,
      sends_of_flood hhead (by omega) (by omega) hfits.aims⟩
  refine ⟨.run .hping3 cmd (a.limitsOf.maxDurationS + 30), ?_, hsends⟩
  unfold doFlood
  rw [attrStr_ok htarget, attrStr_ok htype, hport, hcount, hrate]
  simp only [ok_bind]
  rw [hcmd]
  rfl

theorem wrk_sends (htyped : Typed a .wrk) (hlimits : a.limitsOf = defaultLimits)
    (htarget : a.attrs "target".toList = some (.str target))
    (hvalid : validateArgs a .wrk = .ok ()) (h : Permits host net (a.rules net .wrk) f) :
    Causes net (doWrk host a) f := by
  obtain ⟨connections, hconnections⟩ := htyped.attrInt "connections" "connections" 100
    (by simp [options]) rfl
  obtain ⟨threads, hthreads⟩ := htyped.attrInt "threads" "threads" 4 (by simp [options]) rfl
  obtain ⟨duration, hduration⟩ := htyped.duration (by simp [options])
  unfold validateArgs at hvalid
  obtain ⟨-, hvalid⟩ := seq_ok_iff.mp hvalid
  simp only at hvalid
  rw [attr_of_attrInt hconnections, attr_of_attrInt hthreads, attr_of_attrInt hduration] at hvalid
  obtain ⟨hwrk, hvalid⟩ := seq_ok_iff.mp hvalid
  obtain ⟨url, hurl, hvalid⟩ := bind_ok_iff.mp hvalid
  obtain ⟨port, hport, -⟩ := bind_ok_iff.mp hvalid
  unfold Namespace.rules commandRules at h
  simp only at h
  rw [load_of_loadUrl htarget hurl] at h
  obtain ⟨rule, hrule, hinstalled, hfits⟩ := h
  obtain ⟨⟨name, n⟩, hendpoint, rfl⟩ := List.mem_map.mp hrule
  obtain ⟨binary, hbinary⟩ := Option.isSome_iff_exists.mp (hinstalled _ rfl)
  obtain ⟨c, t, d, rfl, rfl, rfl, ht, hle, hc, hd, hmax⟩ := wrk_bounds hlimits hwrk
  obtain ⟨cmd, hcmd, hsends⟩ : ∃ cmd, (buildWrkCmd host a.limitsOf url c t d).result = .ok cmd ∧
      ∃ f', net.sends .wrk cmd f' ∧ f'.aim = f.aim :=
    ⟨_, buildWrkCmd_ok_iff.mpr ⟨hwrk, ⟨port, hport⟩, binary, _, _, _, hbinary,
      strInt_nat (by omega), strInt_nat (by omega), strInt_nat (by omega), rfl⟩,
      sends_of_load (head_of_httpPort hport) ⟨ht, hle⟩ (by omega) ⟨hd, by omega⟩
        (Option.mem_toList.mp hendpoint) hfits.aims⟩
  refine ⟨.run .wrk cmd (d + 30), ?_, hsends⟩
  unfold doWrk
  rw [hurl, hconnections, hthreads, hduration]
  simp only [ok_bind]
  rw [hwrk, ok_bind, hport, ok_bind, hcmd]
  rfl

theorem iperf_sends (htyped : Typed a .iperf) (hlimits : a.limitsOf = defaultLimits)
    (htarget : a.attrs "target".toList = some (.str target)) (hdevice : '%' ∉ target)
    (hvalid : validateArgs a .iperf = .ok ()) (h : Permits host net (a.rules net .iperf) f) :
    Causes net (doIperf host a) f := by
  obtain ⟨port, hport⟩ := htyped.attrInt "port" "port" 5201 (by simp [options]) rfl
  obtain ⟨duration, hduration⟩ := htyped.duration (by simp [options])
  obtain ⟨parallel, hparallel⟩ := htyped.attrInt "parallel" "parallel" 4 (by simp [options]) rfl
  unfold validateArgs at hvalid
  obtain ⟨-, hvalid⟩ := seq_ok_iff.mp hvalid
  simp only at hvalid
  rw [attr_of_attrInt hport, attr_of_attrInt hparallel, attr_of_attrInt hduration] at hvalid
  have hiperf : a.limitsOf.iperf (.int duration) (.int parallel) (.int port) = .ok () := hvalid
  unfold Namespace.rules commandRules at h
  rw [txt_given "target" (attrStr_ok htarget) rfl, num_given "port" hport rfl] at h
  obtain ⟨hinstalled, hfits⟩ := fits_of_permits h
  obtain ⟨binary, hbinary⟩ := Option.isSome_iff_exists.mp (hinstalled _ rfl)
  obtain ⟨d, p, n, rfl, rfl, rfl, hd, hdmax, hp, hpmax, hn⟩ := iperf_bounds hlimits hiperf
  obtain ⟨cmd, hcmd, hsends⟩ : ∃ cmd, (buildIperf3Cmd host a.limitsOf target d p n).result =
      .ok cmd ∧ ∃ f', net.sends .iperf3 cmd f' ∧ f'.aim = f.aim :=
    ⟨_, buildIperf3Cmd_ok_iff.mpr ⟨hiperf, binary, _, _, _, hbinary, strInt_nat (by omega),
      strInt_nat (by omega), strInt_nat (by omega), rfl⟩,
      sends_of_stream hdevice ⟨hd, by omega⟩ ⟨hp, by omega⟩ hfits.aims⟩
  refine ⟨.run .iperf3 cmd (d + 30), ?_, hsends⟩
  unfold doIperf
  rw [attrStr_ok htarget, hduration, hparallel, hport]
  simp only [ok_bind]
  rw [hiperf, ok_bind, hcmd]
  rfl

/-- What a namespace has for the sender of a command, beyond what the preflight checks. -/
structure Ready (a : Namespace) (command : Command) (dst src : PyStr) : Prop where
  typed : Typed a command
  limits : a.limitsOf = defaultLimits
  target : a.attrs "target".toList = some (.str dst)
  takes : TakesTarget dst command
  src : command ∈ crafted → a.attrs "src".toList = some (.str src)
  scanType : command = .scan → ∃ type ∈ nmapScanFlags.map Prod.fst,
    a.attrs "type".toList = some (.str type)

/-- What the rules of a command permit, its function sends. -/
theorem validated_sends (hready : Ready a command target src) (hall : command ≠ .all)
    (hvalid : validateArgs a command = .ok ())
    (h : Permits host net (a.rules net command) f) :
    Causes net (validated host command a) f := by
  obtain ⟨htyped, hlimits, htarget, htakes, hsrc, hscan⟩ := hready
  have htarget' := attrStr_ok htarget
  have hcauses : Causes net (sender host command a) f → Causes net
      (validated host command a) f := by
    rintro ⟨action, haction, hsends⟩
    exact ⟨action, seq_ok_iff.mpr ⟨hvalid, haction⟩, hsends⟩
  apply hcauses
  cases command with
  | all => exact absurd rfl hall
  | http =>
      obtain ⟨port, hport⟩ := htyped.attrInt "port" "port" 80 (by simp [options]) rfl
      obtain ⟨path, hpath⟩ := htyped.attrStr (strOption "path" (.str "/".toList)) "path"
        (by simp [options]) rfl
      refine causes_of_sends (.httpGet target path port) ?_
        (reaches_of_permits htarget hport h)
      unfold sender doHttp
      simp only
      rw [htarget', hpath, hport]
      rfl
  | handshake =>
      obtain ⟨port, hport⟩ := htyped.attrInt "port" "port" 22 (by simp [options]) rfl
      obtain ⟨app, happ⟩ := htyped.attrStr (strOption "app" (.str "SSH".toList)) "app"
        (by simp [options]) rfl
      refine causes_of_sends (.tcpHandshake target port app) ?_
        (reaches_of_permits htarget hport h)
      unfold sender doHandshake
      simp only
      rw [htarget', hport, happ]
      rfl
  | eicar =>
      obtain ⟨port, hport⟩ := htyped.attrInt "port" "port" 80 (by simp [options]) rfl
      refine causes_of_sends (.deliverEicarHttp target port) ?_
        (reaches_of_permits htarget hport h)
      unfold sender doEicar
      simp only
      rw [htarget', hport]
      rfl
  | gtube =>
      obtain ⟨port, hport⟩ := htyped.attrInt "port" "port" 80 (by simp [options]) rfl
      refine causes_of_sends (.deliverGtubeHttp target port) ?_
        (reaches_of_permits htarget hport h)
      unfold sender doGtube
      simp only
      rw [htarget', hport]
      rfl
  | crawl => exact crawl_sends htyped hvalid h
  | dns => exact dns_sends htyped htarget h
  | scan => exact scan_sends htyped hlimits htarget (htakes.operand (by decide)) (hscan rfl) hvalid h
  | flood => exact flood_sends htyped hlimits htarget (htakes.operand (by decide)) hvalid h
  | malformed =>
      obtain ⟨port, hport⟩ := htyped.attrInt "port" "port" 80 (by simp [options]) rfl
      exact packet_sends htarget (hsrc (by decide)) hport ⟨_, rfl⟩ h
  | badcsum =>
      obtain ⟨port, hport⟩ := htyped.attrInt "port" "port" 80 (by simp [options]) rfl
      exact packet_sends htarget (hsrc (by decide)) hport ⟨_, rfl⟩ h
  | deny =>
      obtain ⟨port, hport⟩ := htyped.attrInt "port" "port" 9 (by simp [options]) rfl
      exact packet_sends htarget (hsrc (by decide)) hport ⟨_, rfl⟩ h
  | ttl =>
      obtain ⟨port, hport⟩ := htyped.attrInt "port" "port" 80 (by simp [options]) rfl
      obtain ⟨ttl, httl⟩ := htyped.attrInt "ttl" "ttl" 1 (by simp [options]) rfl
      obtain ⟨-, hmin, hmax⟩ := (validateArgs_ttl (attrInt_ok_iff.mp hport)
        (attrInt_ok_iff.mp httl)).mp hvalid
      have hclass : (PacketGenerator.tinyTtl ttl).payloadClass =
          .ok ("tiny-ttl-".toList ++ intText ttl) := by
        unfold PacketGenerator.tinyTtl
        simp only
        rw [strInt_small (by omega) (by omega)]
        rfl
      have hsent := packet_sends htarget (hsrc (by decide)) hport ⟨_, hclass⟩ h
      unfold sender doTtl
      simp only
      rwa [httl, ok_bind]
  | frag =>
      obtain ⟨port, hport⟩ := htyped.attrInt "port" "port" 80 (by simp [options]) rfl
      obtain ⟨count, hcount⟩ := htyped.attrInt "count" "count" 8 (by simp [options]) rfl
      obtain ⟨-, hpos, -⟩ := (validateArgs_frag (attrInt_ok_iff.mp hport)
        (attrInt_ok_iff.mp hcount)).mp hvalid
      exact frag_sends htarget (hsrc (by decide)) hport hcount hpos h
  | wrk => exact wrk_sends htyped hlimits htarget hvalid h
  | iperf => exact iperf_sends htyped hlimits htarget (htakes.device (by decide)) hvalid h

end senders

/-! ## The suite -/

def isNumber : PyValue → Bool
  | .int _ => true
  | _ => false

/-- What the suite overrides for a command, and whether it is a number. -/
def overridden (command : Command) : List (String × Bool) :=
  match command with
  | .http => [("path", false), ("port", true)]
  | .dns => [("qname", false)]
  | .handshake => [("port", true), ("app", false)]
  | .scan => [("type", false), ("max_ports", true)]
  | .flood => [("type", false), ("port", true), ("count", true), ("rate", true)]
  | .ttl => [("port", true), ("ttl", true)]
  | .frag => [("port", true), ("count", true)]
  | .wrk => [("url", false), ("connections", true), ("threads", true), ("duration", true)]
  | .iperf => [("port", true), ("duration", true), ("parallel", true)]
  | _ => [("port", true)]

/-- The overrides give every option of the command a value, an `int` option a number. -/
def covered (command : Command) : Bool :=
  ((overridden command).map Prod.fst |>.map String.toList).Nodup &&
    (options command).all fun option => (overridden command).any fun entry =>
      entry.1.toList = option.dest && (option.type = .str || entry.2)

theorem covered_of_ne {command : Command} (hall : command ≠ .all) (hcrawl : command ≠ .crawl) :
    covered command = true := by
  cases command <;> first | contradiction | decide

theorem typed_workload {a : Namespace} {name : String} {command : Command}
    {overrides : List (String × PyValue)} (hall : command ≠ .all) (hcrawl : command ≠ .crawl)
    (hkinds : (overrides.map fun entry => (entry.1, isNumber entry.2)) = overridden command) :
    Typed (workload a name command overrides).args command := by
  have hcovered := covered_of_ne hall hcrawl
  unfold covered at hcovered
  rw [Bool.and_eq_true, decide_eq_true_eq, List.all_eq_true] at hcovered
  obtain ⟨hnodup, hoptions⟩ := hcovered
  have hkeys : overrides.map Prod.fst = (overridden command).map Prod.fst := by
    rw [← hkinds, List.map_map]
    rfl
  have hattr : ∀ option ∈ options command, ∃ v,
      (workload a name command overrides).args.attrs option.dest = some v ∧
        (option.type ≠ .str → ∃ n, v = .int n) := by
    intro option hoption
    obtain ⟨entry, hentry, hfits⟩ := List.any_eq_true.mp (hoptions option hoption)
    simp only [Bool.and_eq_true, Bool.or_eq_true, decide_eq_true_eq] at hfits
    obtain ⟨hdest, hkind⟩ := hfits
    rw [← hkinds] at hentry
    obtain ⟨⟨d, v⟩, hmem, rfl⟩ := List.mem_map.mp hentry
    refine ⟨v, hdest ▸ workload_attr _ hkeys hnodup hmem, fun htype => ?_⟩
    have hnumber := hkind.resolve_left htype
    cases v with
    | int n => exact ⟨n, rfl⟩
    | _ => cases hnumber
  refine ⟨fun option hoption => ?_, fun option hoption htype _ => ?_⟩
  · obtain ⟨v, hv, -⟩ := hattr option hoption
    exact ⟨v, hv⟩
  · obtain ⟨v, hv, hint⟩ := hattr option hoption
    obtain ⟨n, rfl⟩ := hint htype
    exact ⟨n, hv⟩

section suite

variable {net : Network} {host : Host} {a : Namespace} {f : Flow} {target src : PyStr}
  {workloads : List Workload}

/-- The workloads of the suite are ready where the suite is. -/
theorem ready_suite {d : Int} {w : Workload} (hlimits : a.limitsOf = defaultLimits)
    (htarget : a.attrs "target".toList = some (.str target)) (htakes : TakesTarget target .all)
    (hsrc : a.attrs "src".toList = some (.str src)) (h : w ∈ suite a (.int d)) :
    w.func ≠ .all ∧ Ready w.args w.func target src := by
  obtain ⟨htarget', hsrc', hlimits'⟩ := kept_suite h
  rw [htarget] at htarget'
  rw [hsrc] at hsrc'
  have hlimits' : w.args.limitsOf = defaultLimits := by
    unfold Namespace.limitsOf
    rw [hlimits']
    exact hlimits
  simp only [suite, List.map_cons, List.map_nil, List.cons_append, List.nil_append,
    List.mem_cons, List.not_mem_nil, or_false] at h
  have hready : Typed w.args w.func → (w.func = .scan → ∃ type ∈ nmapScanFlags.map Prod.fst,
      w.args.attrs "type".toList = some (.str type)) → Ready w.args w.func target src :=
    fun htyped hscan => ⟨htyped, hlimits', htarget',
      ⟨fun _ => htakes.operand (by decide), fun _ => htakes.device (by decide)⟩,
      fun _ => hsrc', hscan⟩
  rcases h with rfl | rfl | rfl | rfl | rfl | rfl | rfl | rfl | rfl | rfl | rfl | rfl | rfl |
    rfl | rfl | rfl | rfl | rfl
  all_goals
    refine ⟨by simp [workload], hready (typed_workload (by simp) (by simp) rfl) ?_⟩
    intro hscan
    first
      | refine ⟨_, ?_, workload_attr ["type", "max_ports"] rfl (by decide) List.mem_cons_self⟩
        simp [nmapScanFlags]
      | simp [workload] at hscan

/-- A suite that is built is not refused by `run_concurrently`. -/
theorem checkSuite_of_build (h : buildAllWorkloads a = .ok workloads) :
    checkSuite (workloads.map Workload.task) a.limitsOf = .ok () := by
  have hchecked := checked_suite h
  unfold checked at hchecked
  split at hchecked
  · cases hchecked
  · split at hchecked
    · rename_i hok
      exact hok
    · cases hchecked

/-- What the rules of the suite permit, one of its workloads sends. -/
theorem all_sends {d : Int} (hlimits : a.limitsOf = defaultLimits)
    (htarget : a.attrs "target".toList = some (.str target)) (htakes : TakesTarget target .all)
    (hsrc : a.attrs "src".toList = some (.str src))
    (hduration : a.attr "duration" = .ok (.int d))
    (hvalid : validateArgs a .all = .ok ()) (hbuild : buildAllWorkloads a = .ok workloads)
    (h : Permits host net (a.rules net .all) f) :
    ∃ actions, doAll host a = .ok actions ∧ ∃ action ∈ actions, action.SendsLike net f := by
  obtain ⟨⟨v, hv, hsuite⟩, -, hchecks⟩ := buildAllWorkloads_eq hbuild
  obtain rfl := Except.ok.inj (hduration.symm.trans hv)
  obtain ⟨rule, hrule, hallows⟩ := h
  rw [← suite_rules net a (.int d)] at hrule
  obtain ⟨w, hw, hrule⟩ := List.mem_flatMap.mp hrule
  obtain ⟨hne, hready⟩ := ready_suite hlimits htarget htakes hsrc hw
  obtain ⟨action, haction, hsends⟩ := validated_sends hready hne (hchecks w (hsuite ▸ hw))
    ⟨rule, hrule, hallows⟩
  refine ⟨workloads.filterMap fun w => (validated host w.func w.args).toOption, ?_, action, ?_,
    hsends⟩
  · unfold doAll
    rw [hvalid, ok_bind, hbuild, ok_bind, checkSuite_of_build hbuild, ok_bind]
    rfl
  · exact List.mem_filterMap.mpr ⟨w, hsuite ▸ hw, toOption_eq_some_iff.mpr haction⟩

/-- What the rules of the command permit, what is performed for it sends. -/
theorem performed_sends (hready : Ready a a.cmd target src)
    (hvalid : validateArgs a a.cmd = .ok ())
    (hbuild : a.cmd = .all → ∃ workloads, buildAllWorkloads a = .ok workloads)
    (h : Permits host net (a.rules net a.cmd) f) :
    ∃ action ∈ performed host a, action.SendsLike net f := by
  unfold performed
  by_cases hall : a.cmd = .all
  · rw [hall] at hready hvalid h
    obtain ⟨d, hduration⟩ := hready.typed.duration (by simp [options])
    obtain ⟨workloads, hbuild⟩ := hbuild hall
    obtain ⟨actions, hdo, hsent⟩ := all_sends hready.limits hready.target hready.takes
      (hready.src (by decide)) (attr_of_attrInt hduration) hvalid hbuild h
    rw [if_pos hall, hdo]
    exact hsent
  · obtain ⟨action, haction, hsends⟩ := validated_sends hready hall hvalid h
    rw [if_neg hall, haction]
    exact ⟨action, List.mem_singleton_self action, hsends⟩

end suite

/-! ## The source -/

section source

variable {m : Machine} {net : Network} {argv : List PyStr} {a a' : Namespace} {command : Command}
  {target src : PyStr}

/-- No option of a command is the source. -/
theorem src_apart (command : Command) :
    "src".toList ∉ (options command).map OptionSpec.dest := by
  cases command <;> decide

theorem Typed.congr (h : Typed a command)
    (hattrs : ∀ d, d ≠ "src".toList → a'.attrs d = a.attrs d) : Typed a' command := by
  have hne : ∀ option ∈ options command, option.dest ≠ "src".toList := by
    intro option hoption heq
    exact src_apart command (heq ▸ List.mem_map_of_mem hoption)
  refine ⟨fun option hoption => ?_, fun option hoption htype hdefault => ?_⟩
  · rw [hattrs _ (hne option hoption)]
    exact h.set option hoption
  · rw [hattrs _ (hne option hoption)]
    exact h.number option hoption htype hdefault

/-- The preflight does not read the source. -/
theorem validateArgs_congr (hlimits : a'.limits = a.limits)
    (hattrs : ∀ d, d ≠ "src".toList → a'.attrs d = a.attrs d) :
    validateArgs a' command = validateArgs a command := by
  have hattr : ∀ dest : String, dest.toList ≠ "src".toList → a'.attr dest = a.attr dest := by
    intro dest hdest
    unfold Namespace.attr
    rw [hattrs _ hdest]
  have hlimitsOf : a'.limitsOf = a.limitsOf := by
    unfold Namespace.limitsOf
    rw [hlimits]
  have hport : validatePort a' command = validatePort a command := by
    unfold validatePort isIcmpFlood
    rw [hattrs "port".toList (by decide), hattr "type" (by decide)]
  have hload : loadUrl a' = loadUrl a := by
    unfold loadUrl
    rw [hattr "url" (by decide), hattr "target" (by decide)]
  unfold validateArgs Namespace.attrStr
  simp only [hlimitsOf, hport, hload, hattr "max_bytes" (by decide), hattr "timeout" (by decide),
    hattr "target" (by decide), hattr "path" (by decide), hattr "scheme" (by decide),
    hattr "port" (by decide), hattr "duration" (by decide), hattr "max_ports" (by decide),
    hattr "type" (by decide), hattr "count" (by decide), hattr "rate" (by decide),
    hattr "ttl" (by decide), hattr "connections" (by decide), hattr "threads" (by decide),
    hattr "parallel" (by decide)]

/-- With a source, `main` goes on, and crafted packets get it. -/
theorem withSource_of (hsrc : SourceOf m a src) (hkind : a.attrs "src".toList = some .none ∨
    ∃ s, a.attrs "src".toList = some (.str s))
    (htarget : a.attrs "target".toList = some (.str target)) :
    ∃ a', withSource m a = .ok a' ∧ a'.cmd = a.cmd ∧ a'.limits = a.limits ∧
      (∀ d, d ≠ "src".toList → a'.attrs d = a.attrs d) ∧
      (a.cmd ∈ crafted → a'.attrs "src".toList = some (.str src)) := by
  rcases hkind with hnone | ⟨s, hs⟩
  · by_cases hcrafted : a.cmd ∈ crafted
    · have hroute := hsrc.routed hnone hcrafted
      rw [txt_given "target" (attrStr_ok htarget) rfl] at hroute
      have hself : update a.attrs "src".toList (some (.str src)) "src".toList =
          some (.str src) := by rw [update_self]
      refine ⟨{ a with attrs := update a.attrs "src".toList (some (.str src)) }, ?_, rfl, rfl,
        fun d hd => update_of_ne _ _ hd, fun _ => hself⟩
      have htext : ((a.attrs "target".toList).bind PyValue.str?).getD [] = target := by
        rw [htarget]
        rfl
      unfold withSource
      rw [hnone]
      simp only
      rw [if_pos hcrafted, htext, hroute]
    · refine ⟨a, ?_, rfl, rfl, fun _ _ => rfl, fun hmem => absurd hmem hcrafted⟩
      unfold withSource
      rw [hnone]
      simp only
      rw [if_neg hcrafted]
  · obtain rfl := hsrc.given s hs
    refine ⟨a, ?_, rfl, rfl, fun _ _ => rfl, fun _ => hs⟩
    unfold withSource
    rw [hs]

/-- With the source in its place, the rules are those of what the parser has read. -/
theorem rules_withSource (hcmd : a'.cmd = a.cmd)
    (hattrs : ∀ d, d ≠ "src".toList → a'.attrs d = a.attrs d)
    (htarget : a.attrs "target".toList = some (.str target))
    (hsrc : a.cmd ∈ crafted → a'.attrs "src".toList = some (.str src)) :
    a'.rules net a'.cmd = commandRules net target src a.given a.cmd := by
  rw [rules_of_source hcmd hattrs, txt_given "target" (attrStr_ok htarget) rfl]
  by_cases hmem : a.cmd ∈ crafted
  · rw [txt_given "src" (attrStr_ok (hsrc hmem)) rfl]
  · exact commandRules_src hmem

/-- What was agreed to in front is performed. -/
theorem main_ok {read : List PyStr → Except CliExit (Command × Attrs)}
    (hparse : parseWith read argv = .ok a) (hsource : withSource m a = .ok a')
    (hyes : a'.attrs "yes".toList = some (.bool true)) :
    main read m argv = .ok (performed m.toHost a') := by
  have hconfirm : confirm m a'.cmd (((a'.attrs "yes".toList).getD .none).truthy) = .ok () := by
    rw [hyes]
    unfold confirm
    rw [if_pos (.inr rfl)]
  unfold main
  rw [hparse]
  show (withSource m a >>= _) = _
  rw [hsource, ok_bind, hconfirm]
  rfl

end source

end SrxProbe.Deploy
