import SrxProbe.Dashboard.Binding
import SrxProbe.Generators.TargetUrl

/-!
# What the dashboard admits and the CLI accepts

An admitted request is run by a command line of the CLI. Its numbers and texts pass the
preflight there, whatever the workload; what may fail is the target, which the
dashboard checks with one pattern, the crawl by its own rule for hosts, and a load by
the port of the URL made from it.
-/

namespace SrxProbe.Dashboard

open SrxProbe.Lib SrxProbe.Generators SrxProbe.Deploy

variable {spec : WorkloadSpec} {req : ValidRequest} {command : Command} {attrs : Attrs}

/-! ## The ceilings -/

theorem mapM_zip {ε α β γ : Type} {f : α → Except ε γ} {g : β → γ} {as : List α} {bs : List β}
    (hlen : as.length = bs.length) (h : ∀ entry ∈ as.zip bs, f entry.1 = .ok (g entry.2)) :
    as.mapM f = .ok (bs.map g) := by
  rw [mapM_ok_iff, List.forall₂_map_right_iff, List.forall₂_iff_zip]
  exact ⟨hlen, fun {a b} hentry => h (a, b) hentry⟩

/-- The namespace of an admitted request. -/
def boundNamespace (command : Command) (attrs : Attrs) : Namespace :=
  ⟨command, attrs, some defaultLimits⟩

theorem preflight_ok_iff (b : Bound spec req command attrs) {a : Namespace} :
    preflight command attrs = .ok a ↔ a = boundNamespace command attrs ∧
      validateArgs (boundNamespace command attrs) command = .ok () ∧
      (command = .all → ∃ workloads,
        buildAllWorkloads (boundNamespace command attrs) = .ok workloads) := by
  have hvalues : (WorkloadLimits.fields.mapM fun field =>
      orRaise (attrs ("limit_".toList ++ field)) PyErr.attributeError) =
      .ok (defaultLimits.values.map .int) := by
    refine mapM_zip (by decide) ?_
    intro entry hentry
    rw [b.limit entry hentry, orRaise_some]
  have hlimits : WorkloadLimits.ofValues (defaultLimits.values.map .int) = .ok defaultLimits := rfl
  unfold preflight
  rw [hvalues, ok_bind, hlimits, ok_bind]
  simp only
  show (validateArgs (boundNamespace command attrs) command >>= _) = _ ↔ _
  rw [bind_ok_iff]
  by_cases hall : command = .all
  · simp only [if_pos hall]
    constructor
    · rintro ⟨u, hvalid, h⟩
      obtain ⟨workloads, hbuild, h⟩ := bind_ok_iff.mp h
      cases h
      exact ⟨rfl, hvalid, fun _ => ⟨workloads, hbuild⟩⟩
    · rintro ⟨rfl, hvalid, hbuild⟩
      obtain ⟨workloads, hbuild⟩ := hbuild hall
      refine ⟨(), hvalid, ?_⟩
      show (buildAllWorkloads (boundNamespace command attrs) >>= _) = _
      rw [hbuild]
      rfl
  · simp only [if_neg hall]
    constructor
    · rintro ⟨u, hvalid, h⟩
      cases h
      exact ⟨rfl, hvalid, fun h => absurd h hall⟩
    · rintro ⟨rfl, hvalid, -⟩
      exact ⟨(), hvalid, rfl⟩

/-! ## Reading a parameter -/

/-- The workload has an integer parameter of this name. -/
def hasInt (spec : WorkloadSpec) (name : String) : Bool :=
  spec.params.any fun param => param.name = name.toList &&
    match param.kind with
    | .int _ => true
    | .str _ _ => false

/-- The workload has a text parameter of this name, with these choices. -/
def hasStr (spec : WorkloadSpec) (name : String) (choices : Option (List PyStr)) : Bool :=
  spec.params.any fun param => param.name = name.toList &&
    match param.kind with
    | .int _ => false
    | .str _ choices' => choices' = choices

/-- An integer parameter is bound to a number in its range. -/
theorem Bound.readInt (b : Bound spec req command attrs) (h : Admitted spec req)
    (hfits : Fits spec command) {name : String} (dest : PyStr) (limit : Int)
    (hparam : hasInt spec name = true) (hdest : destOf name.toList = dest)
    (hlimit : (limits spec.name).lookup name.toList = some limit) :
    ∃ n, attrs dest = some (.int n) ∧ req.params.lookup name.toList = some (.int n) ∧
      1 ≤ n ∧ n ≤ limit := by
  obtain ⟨param, hmem, hkind⟩ := List.any_eq_true.mp hparam
  rw [Bool.and_eq_true, decide_eq_true_eq] at hkind
  obtain ⟨hname, hkind⟩ := hkind
  obtain ⟨value, hvalue, hvalid⟩ := h.entry hmem
  cases value with
  | str s =>
      obtain ⟨-, _, _, hstr, -⟩ := hvalid
      rw [hstr] at hkind
      cases hkind
  | int n =>
      obtain ⟨-, limit', hlimit', hmin, hmax⟩ := hvalid
      rw [hname] at hvalue hlimit'
      rw [hlimit] at hlimit'
      cases hlimit'
      exact ⟨n, hdest ▸ b.param _ hvalue, Dict.lookup_of_mem (h.names ▸ hfits.names) hvalue, hmin,
        hmax⟩

/-- A text parameter is bound to a text that passes its checks. -/
theorem Bound.readStr (b : Bound spec req command attrs) (h : Admitted spec req)
    {name : String} (dest : PyStr) (choices : Option (List PyStr))
    (hparam : hasStr spec name choices = true) (hdest : destOf name.toList = dest) :
    ∃ s, attrs dest = some (.str s) ∧ (∀ list ∈ choices, s ∈ list) ∧
      (name.toList = "path".toList → s.length ≤ 2048 ∧ s.head? = some '/') ∧
      (spec.name = "crawl".toList → name.toList = "path".toList → isForeignPath s = false) := by
  obtain ⟨param, hmem, hkind⟩ := List.any_eq_true.mp hparam
  rw [Bool.and_eq_true, decide_eq_true_eq] at hkind
  obtain ⟨hname, hkind⟩ := hkind
  obtain ⟨value, hvalue, hvalid⟩ := h.entry hmem
  cases value with
  | int n =>
      obtain ⟨⟨_, hint⟩, -⟩ := hvalid
      rw [hint] at hkind
      cases hkind
  | str s =>
      obtain ⟨-, default, choices', hstr, hchoice, hlen, hslash, hforeign⟩ := hvalid
      rw [hname] at hvalue hlen hslash hforeign
      rw [hstr] at hkind
      obtain rfl := of_decide_eq_true hkind
      refine ⟨s, hdest ▸ b.param _ hvalue, hchoice, ?_, hforeign⟩
      intro hpath
      rw [if_pos hpath] at hlen
      exact ⟨hlen, hslash hpath⟩

/-! ## Targets and paths -/

theorem isPlain_of_isTargetChar {c : Char} (h : isTargetChar c = true) : isPlain c = true := by
  refine isPlain_of h ?_ (by decide)
  unfold isTargetChar at h
  simp only [Bool.or_eq_true, decide_eq_true_eq] at h
  rcases h with ((((h | rfl) | rfl) | rfl) | rfl) | rfl
  · exact isPrintable_of_isAlnum h
  all_goals decide

/-- The characters of an admitted target. -/
theorem Admitted.plain (h : Admitted spec req) :
    req.target.head?.any isAlnum = true ∧ req.target ≠ [] ∧
      ∀ c ∈ req.target, isPlain c = true := by
  have htarget := h.target
  unfold isTarget at htarget
  rw [Bool.and_eq_true] at htarget
  obtain ⟨hhead, htail⟩ := htarget
  cases hreq : req.target with
  | nil =>
      rw [hreq] at hhead
      cases hhead
  | cons c rest =>
      rw [hreq] at hhead htail
      have hc : isTargetChar c = true := by
        have halnum : isAlnum c = true := hhead
        unfold isTargetChar
        simp [halnum]
      refine ⟨hhead, List.cons_ne_nil _ _, ?_⟩
      intro d hd
      rcases List.mem_cons.mp hd with rfl | hd
      · exact isPlain_of_isTargetChar hc
      · exact isPlain_of_isTargetChar (List.all_eq_true.mp htail d hd)

/-- A path that a crawl is admitted for passes `validate_path`. -/
theorem validatePath_of_admitted {path : PyStr} (hlen : path.length ≤ 2048)
    (hslash : path.head? = some '/') (hforeign : isForeignPath path = false) :
    validatePath path = .ok () := by
  unfold isForeignPath at hforeign
  simp only [Bool.or_eq_false_iff, decide_eq_false_iff_not, List.any_eq_false, Bool.or_eq_true,
    decide_eq_true_eq, not_or] at hforeign
  obtain ⟨⟨⟨⟨hone, hback⟩, hfrag⟩, hprint⟩, hclean⟩ := hforeign
  refine validatePath_ok_iff.mpr ⟨hlen, hslash, hone, hback, hfrag, ?_, ?_⟩
  · intro c hc
    have := hprint c hc
    unfold isPrintable
    simp only [Bool.and_eq_true, decide_eq_true_eq]
    omega
  · intro c hc
    have hno := hclean c hc
    unfold isHidden
    simp [hno]

/-! ## The preflight of each workload -/

/-- What the CLI asks of a target, beyond what the dashboard has checked: a crawl needs
an address or a hostname, and behind the first colon of the target of a load there has
to be nothing or a port. -/
def CliAccepts (workload target : PyStr) : Prop :=
  (workload = "crawl".toList → (ipAddress target).isSome = true ∨ isHostname target = true) ∧
    (workload = "wrk".toList ∨ workload = "all".toList → IsPortText (after ':' target))

theorem cliAccepts_other {workload target : PyStr}
    (h : workload ∉ ["crawl".toList, "wrk".toList, "all".toList]) : CliAccepts workload target := by
  simp only [List.mem_cons, List.not_mem_nil, or_false, not_or] at h
  refine ⟨fun hcrawl => absurd hcrawl h.1, ?_⟩
  rintro (hwrk | hall)
  · exact absurd hwrk h.2.1
  · exact absurd hall h.2.2

theorem Fits.command_eq (hfits : Fits spec command) {c : Command}
    (hc : Command.ofName? spec.name = some c) : command = c :=
  Option.some.inj (hfits.named.symm.trans hc)

/-- The attributes that no option of a command sets are absent. -/
theorem Bound.port_unset (b : Bound spec req command attrs)
    (h : "port".toList ∉ (options command).map OptionSpec.dest) :
    (boundNamespace command attrs).attrs "port".toList = none :=
  b.unset _ (by decide) h

/-- A workload that is checked for its port alone. -/
theorem Bound.plain (b : Bound spec req command attrs) (h : Admitted spec req)
    (hfits : Fits spec command)
    (hparam : hasInt spec "port" = true) (hplain : command ∈ plainCommands) :
    validateArgs (boundNamespace command attrs) command = .ok () := by
  obtain ⟨port, hport, -, hmin, hmax⟩ :=
    b.readInt h hfits "port".toList 65535 hparam rfl rfl
  have hne : command ≠ .flood := by
    rintro rfl
    exact absurd hplain (by decide)
  exact (validateArgs_plain hplain).mpr ((validatePort_int hport hne).mpr ⟨hmin, hmax⟩)

theorem Bound.scan (b : Bound spec req .scan attrs) (h : Admitted spec req)
    (hfits : Fits spec .scan)
    (hports : hasInt spec "max-ports" = true) :
    validateArgs (boundNamespace .scan attrs) .scan = .ok () := by
  obtain ⟨n, hn, -, hmin, hmax⟩ := b.readInt h hfits "max_ports".toList 4096 hports
    rfl rfl
  exact (validateArgs_scan (b.port_unset (by decide)) hn).mpr ⟨hmin, hmax⟩

theorem Bound.ttl (b : Bound spec req .ttl attrs) (h : Admitted spec req)
    (hfits : Fits spec .ttl)
    (hport : hasInt spec "port" = true)
    (httl : hasInt spec "ttl" = true) :
    validateArgs (boundNamespace .ttl attrs) .ttl = .ok () := by
  obtain ⟨port, hp, -, hpmin, hpmax⟩ := b.readInt h hfits "port".toList 65535 hport
    rfl rfl
  obtain ⟨n, hn, -, hmin, hmax⟩ := b.readInt h hfits "ttl".toList 255 httl rfl rfl
  exact (validateArgs_ttl hp hn).mpr ⟨⟨hpmin, hpmax⟩, hmin, hmax⟩

theorem Bound.frag (b : Bound spec req .frag attrs) (h : Admitted spec req)
    (hfits : Fits spec .frag) (hname : spec.name = "frag".toList)
    (hport : hasInt spec "port" = true)
    (hcount : hasInt spec "count" = true) :
    validateArgs (boundNamespace .frag attrs) .frag = .ok () := by
  obtain ⟨port, hp, -, hpmin, hpmax⟩ := b.readInt h hfits "port".toList 65535 hport
    rfl rfl
  obtain ⟨n, hn, -, hmin, hmax⟩ := b.readInt h hfits "count".toList 64 hcount
    (by decide) (by rw [hname]; rfl)
  exact (validateArgs_frag hp hn).mpr ⟨⟨hpmin, hpmax⟩, hmin, hmax⟩

theorem Bound.flood (b : Bound spec req .flood attrs) (h : Admitted spec req)
    (hfits : Fits spec .flood) (hname : spec.name = "flood".toList)
    (htype : hasStr spec "type" (some ["syn".toList, "icmp".toList, "udp".toList]) = true)
    (hport : hasInt spec "port" = true)
    (hcount : hasInt spec "count" = true)
    (hrate : hasInt spec "rate" = true) :
    validateArgs (boundNamespace .flood attrs) .flood = .ok () := by
  obtain ⟨type, ht, hchoice, -⟩ := b.readStr h "type".toList _ htype (by decide)
  obtain ⟨port, hp, -, hpmin, hpmax⟩ := b.readInt h hfits "port".toList 65535 hport
    rfl rfl
  obtain ⟨count, hc, hclookup, hcmin, hcmax⟩ := b.readInt h hfits "count".toList 10000 hcount
    (by decide) (by rw [hname]; rfl)
  obtain ⟨rate, hr, hrlookup, hrmin, hrmax⟩ := b.readInt h hfits "rate".toList 1000 hrate
    rfl rfl
  have hrelated := h.related
  have hpace : count * WorkloadLimits.intervalUs rate ≤ 300000000 := by
    unfold checkRelated at hrelated
    rw [hname, if_neg (by decide), if_pos rfl, intOf_ok hclookup, intOf_ok hrlookup]
      at hrelated
    have hno := raiseIf_ok_iff.mp hrelated
    unfold WorkloadLimits.intervalUs
    omega
  refine (validateArgs_flood ht (hchoice _ rfl) hp hc hr).mpr
    ⟨⟨?_, hpmax⟩, ⟨hcmin, hcmax⟩, ⟨hrmin, hrmax⟩, hpace⟩
  split <;> omega

theorem Bound.iperf (b : Bound spec req .iperf attrs) (h : Admitted spec req)
    (hfits : Fits spec .iperf) (hport : hasInt spec "port" = true)
    (hparallel : hasInt spec "parallel" = true)
    (hduration : hasInt spec "duration" = true) :
    validateArgs (boundNamespace .iperf attrs) .iperf = .ok () := by
  obtain ⟨port, hp, -, hpmin, hpmax⟩ := b.readInt h hfits "port".toList 65535 hport
    rfl rfl
  obtain ⟨n, hn, -, hnmin, hnmax⟩ := b.readInt h hfits "parallel".toList 32 hparallel
    rfl rfl
  obtain ⟨d, hd, -, hdmin, hdmax⟩ := b.readInt h hfits "duration".toList 300 hduration
    rfl rfl
  exact (validateArgs_iperf hp hd hn).mpr ⟨⟨hpmin, hpmax⟩, ⟨hdmin, hdmax⟩, hnmin, hnmax⟩

/-- A load is accepted by the port of its target. -/
theorem Bound.wrk (b : Bound spec req .wrk attrs) (h : Admitted spec req)
    (hfits : Fits spec .wrk) (hname : spec.name = "wrk".toList)
    (hconnections : hasInt spec "connections" = true)
    (hthreads : hasInt spec "threads" = true)
    (hduration : hasInt spec "duration" = true)
    (hurl : "url".toList ∉ spec.params.map fun param => destOf param.name) :
    validateArgs (boundNamespace .wrk attrs) .wrk = .ok () ↔ CliAccepts spec.name req.target := by
  obtain ⟨connections, hc, hclookup, hcmin, hcmax⟩ := b.readInt h hfits "connections".toList 10000
    hconnections rfl rfl
  obtain ⟨threads, ht, htlookup, htmin, htmax⟩ := b.readInt h hfits "threads".toList 64 hthreads
    rfl rfl
  obtain ⟨d, hd, -, hdmin, hdmax⟩ := b.readInt h hfits "duration".toList 300 hduration
    rfl rfl
  have hrelated := h.related
  have hthreads : threads ≤ connections := by
    unfold checkRelated at hrelated
    rw [hname, if_pos rfl, intOf_ok hclookup, intOf_ok htlookup] at hrelated
    simp only [ok_bind] at hrelated
    obtain ⟨u, hcheck, -⟩ := bind_ok_iff.mp hrelated
    have hno := raiseIf_ok_iff.mp hcheck
    omega
  have hnone : attrs "url".toList = some .none := by
    have hdest : (strOption "url" .none).dest = "url".toList := by decide
    have hdefault := b.default (strOption "url" .none) List.mem_cons_self (hdest ▸ hurl)
    rw [hdest] at hdefault
    exact hdefault
  obtain ⟨hhead, -, hplain⟩ := h.plain
  have hboth : threads ≤ min 64 connections := by omega
  have hiff := validateArgs_wrk (a := boundNamespace .wrk attrs)
    (b.port_unset (by decide)) hc ht hd hnone b.target
  rw [hiff, httpPort_ok_iff hplain hhead, hname]
  constructor
  · rintro ⟨-, -, -, hport⟩
    exact ⟨fun hcrawl => absurd hcrawl (by decide), fun _ => hport⟩
  · intro haccepts
    exact ⟨⟨hcmin, hcmax⟩, ⟨htmin, hboth⟩, ⟨hdmin, hdmax⟩, haccepts.2 (.inl rfl)⟩

/-- The suite is accepted by the port of its target, too: it has a load. -/
theorem Bound.all (b : Bound spec req .all attrs) (h : Admitted spec req)
    (hfits : Fits spec .all) (hname : spec.name = "all".toList)
    (hduration : hasInt spec "duration" = true) :
    validateArgs (boundNamespace .all attrs) .all = .ok () ∧
      ((∃ workloads, buildAllWorkloads (boundNamespace .all attrs) = .ok workloads) ↔
        CliAccepts spec.name req.target) := by
  obtain ⟨d, hd, -, hdmin, hdmax⟩ := b.readInt h hfits "duration".toList 300 hduration
    rfl rfl
  have hport := b.port_unset (by decide)
  obtain ⟨hhead, -, hplain⟩ := h.plain
  refine ⟨(validateArgs_all hport hd).mpr ⟨hdmin, hdmax⟩, ?_⟩
  rw [buildAllWorkloads_ok_iff rfl hport hd hdmin hdmax b.target, httpPort_ok_iff hplain hhead,
    hname]
  constructor
  · intro hport
    exact ⟨fun hcrawl => absurd hcrawl (by decide), fun _ => hport⟩
  · intro haccepts
    exact haccepts.2 (.inr rfl)

/-- A crawl is accepted for addresses and hostnames. -/
theorem Bound.crawl (b : Bound spec req .crawl attrs) (h : Admitted spec req)
    (hfits : Fits spec .crawl) (hname : spec.name = "crawl".toList)
    (hpath : hasStr spec "path" none = true)
    (hscheme : hasStr spec "scheme" (some ["http".toList, "https".toList]) = true)
    (hport : hasInt spec "port" = true)
    (hbytes : hasInt spec "max-bytes" = true)
    (htimeout : hasInt spec "timeout" = true) :
    validateArgs (boundNamespace .crawl attrs) .crawl = .ok () ↔
      CliAccepts spec.name req.target := by
  obtain ⟨path, hp, -, hform, hforeign⟩ := b.readStr h "path".toList _ hpath (by decide)
  obtain ⟨scheme, hs, hchoice, -⟩ := b.readStr h "scheme".toList _ hscheme (by decide)
  obtain ⟨port, hn, -, hmin, hmax⟩ := b.readInt h hfits "port".toList 65535 hport
    rfl rfl
  obtain ⟨bytes, hb, -, hbmin, hbmax⟩ := b.readInt h hfits "max_bytes".toList 4194304 hbytes
    rfl rfl
  obtain ⟨timeout, ht, -, htmin, htmax⟩ := b.readInt h hfits "timeout".toList 30 htimeout
    rfl rfl
  obtain ⟨-, hne, hplain⟩ := h.plain
  obtain ⟨hlen, hslash⟩ := hform rfl
  have hclean := validatePath_of_admitted hlen hslash (hforeign hname rfl)
  have hiff := validateArgs_crawl (a := boundNamespace .crawl attrs) hn hb ht b.target hp hs
  rw [hiff, targetUrl_ok_iff hplain hne h.short hclean (hchoice _ rfl) hmin hmax, hname]
  constructor
  · rintro ⟨-, -, hhost⟩
    refine ⟨fun _ => hhost, ?_⟩
    rintro (hwrk | hall)
    · exact absurd hwrk (by decide)
    · exact absurd hall (by decide)
  · intro haccepts
    exact ⟨⟨hmin, hmax⟩, ⟨⟨hbmin, hbmax⟩, htmin, htmax⟩, haccepts.1 rfl⟩

/-- **The preflight of an admitted request passes exactly for the targets that the CLI
accepts**, one case for each workload of the catalogue. -/
theorem passes_iff (hmem : spec ∈ workloads) (h : Admitted spec req) (hfits : Fits spec command)
    (b : Bound spec req command attrs) :
    (validateArgs (boundNamespace command attrs) command = .ok () ∧
      (command = .all → ∃ workloads,
        buildAllWorkloads (boundNamespace command attrs) = .ok workloads)) ↔
      CliAccepts spec.name req.target := by
  -- but for `all`, the preflight is the check of the arguments
  have hchecked : command ≠ .all →
      ((validateArgs (boundNamespace command attrs) command = .ok () ∧
        (command = .all → ∃ workloads,
          buildAllWorkloads (boundNamespace command attrs) = .ok workloads)) ↔
        validateArgs (boundNamespace command attrs) command = .ok ()) :=
    fun hall => and_iff_left fun heq => absurd heq hall
  -- the workloads whose preflight does not read the target
  have hother : spec.name ∉ ["crawl".toList, "wrk".toList, "all".toList] →
      validateArgs (boundNamespace command attrs) command = .ok () →
      (validateArgs (boundNamespace command attrs) command = .ok () ↔
        CliAccepts spec.name req.target) :=
    fun hname hvalid => iff_of_true hvalid (cliAccepts_other hname)
  have hplain : hasInt spec "port" = true →
      spec.name ∉ ["crawl".toList, "wrk".toList, "all".toList] → command ∈ plainCommands →
      (validateArgs (boundNamespace command attrs) command = .ok () ↔
        CliAccepts spec.name req.target) :=
    fun hport hname hcommand => hother hname (b.plain h hfits hport hcommand)
  simp only [workloads, List.mem_cons, List.not_mem_nil, or_false] at hmem
  rcases hmem with rfl | rfl | rfl | rfl | rfl | rfl | rfl | rfl | rfl | rfl | rfl | rfl | rfl |
    rfl | rfl | rfl
  · obtain rfl := hfits.command_eq (c := .http) (by decide)
    exact (hchecked (by decide)).trans (hplain (by decide) (by decide) (by decide))
  · obtain rfl := hfits.command_eq (c := .crawl) (by decide)
    exact (hchecked (by decide)).trans (b.crawl h hfits rfl (by decide)
      (by decide) (by decide) (by decide) (by decide))
  · obtain rfl := hfits.command_eq (c := .dns) (by decide)
    exact (hchecked (by decide)).trans (hother (by decide) ((validateArgs_plain (by decide)).mpr
      (validatePort_unset (b.port_unset (by decide)))))
  · obtain rfl := hfits.command_eq (c := .handshake) (by decide)
    exact (hchecked (by decide)).trans (hplain (by decide) (by decide) (by decide))
  · obtain rfl := hfits.command_eq (c := .eicar) (by decide)
    exact (hchecked (by decide)).trans (hplain (by decide) (by decide) (by decide))
  · obtain rfl := hfits.command_eq (c := .gtube) (by decide)
    exact (hchecked (by decide)).trans (hplain (by decide) (by decide) (by decide))
  · obtain rfl := hfits.command_eq (c := .scan) (by decide)
    exact (hchecked (by decide)).trans (hother (by decide) (b.scan h hfits (by decide)))
  · obtain rfl := hfits.command_eq (c := .flood) (by decide)
    exact (hchecked (by decide)).trans (hother (by decide) (b.flood h hfits rfl
      (by decide) (by decide) (by decide) (by decide)))
  · obtain rfl := hfits.command_eq (c := .malformed) (by decide)
    exact (hchecked (by decide)).trans (hplain (by decide) (by decide) (by decide))
  · obtain rfl := hfits.command_eq (c := .badcsum) (by decide)
    exact (hchecked (by decide)).trans (hplain (by decide) (by decide) (by decide))
  · obtain rfl := hfits.command_eq (c := .ttl) (by decide)
    exact (hchecked (by decide)).trans (hother (by decide)
      (b.ttl h hfits (by decide) (by decide)))
  · obtain rfl := hfits.command_eq (c := .frag) (by decide)
    exact (hchecked (by decide)).trans (hother (by decide)
      (b.frag h hfits rfl (by decide) (by decide)))
  · obtain rfl := hfits.command_eq (c := .deny) (by decide)
    exact (hchecked (by decide)).trans (hplain (by decide) (by decide) (by decide))
  · obtain rfl := hfits.command_eq (c := .wrk) (by decide)
    exact (hchecked (by decide)).trans (b.wrk h hfits rfl
      (by decide) (by decide) (by decide) (by decide))
  · obtain rfl := hfits.command_eq (c := .iperf) (by decide)
    exact (hchecked (by decide)).trans (hother (by decide) (b.iperf h hfits
      (by decide) (by decide) (by decide)))
  · obtain rfl := hfits.command_eq (c := .all) (by decide)
    obtain ⟨hvalid, hbuild⟩ := b.all h hfits rfl (by decide)
    exact ⟨fun hpass => hbuild.mp (hpass.2 rfl), fun haccepts =>
      ⟨hvalid, fun _ => hbuild.mpr haccepts⟩⟩

/-! ## The contract -/

/-- What the script finds behind its own path: the tokens after `sudo -n`, if it is
there, the interpreter and the script. -/
def scriptArgs (argv : List PyStr) (useSudo : Bool) : List PyStr :=
  argv.drop (if useSudo then 4 else 2)

/-- A namespace carries the command, the target, the source and the parameters of a
request. -/
structure Carries (req : ValidRequest) (a : Namespace) : Prop where
  command : Command.ofName? req.workload = some a.cmd
  target : a.attrs "target".toList = some (.str req.target)
  src : a.attrs "src".toList = some (if req.src = [] then .none else .str req.src)
  params : ∀ entry ∈ req.params, a.attrs (destOf entry.1) = some entry.2.value

/-- The CLI takes the command line that the dashboard builds for a request, on this
host, and reads the request from it. -/
def Taken (env : Env) (rootOk : Bool) (req : ValidRequest) : Prop :=
  ∃ argv useSudo a,
    makeCmd env req.workload req.target req.src req.params rootOk = .ok (argv, useSudo) ∧
      parseArgs (scriptArgs argv useSudo) = .ok a ∧ Carries req a

theorem makeCmd_local (h : Admitted spec req) {env : Env} (hlocal : env.clientHost = [])
    (rootOk : Bool) : ∃ argv useSudo,
      makeCmd env req.workload req.target req.src req.params rootOk = .ok (argv, useSudo) ∧
        scriptArgs argv useSudo = cliArgs spec req.target req.src req.params := by
  unfold makeCmd
  rw [h.workload, h.known, orRaise_some, ok_bind]
  simp only [hlocal, ne_eq, not_true_eq_false, if_false]
  refine ⟨_, _, rfl, ?_⟩
  unfold scriptArgs
  cases spec.root && rootOk <;> rfl

theorem reported_ok_iff {α : Type} {x : Except PyErr α} {v : α} :
    reported x = .ok v ↔ x = .ok v := by
  unfold reported Except.mapError
  cases x with
  | error e => simp
  | ok w => simp

/-- **The CLI takes an admitted request exactly when it accepts the target.** -/
theorem taken_iff {body : PyValue} {req : ValidRequest} (hok : validateRequest body = .ok req)
    {env : Env} (hlocal : env.clientHost = []) (rootOk : Bool) :
    Taken env rootOk req ↔ CliAccepts req.workload req.target := by
  obtain ⟨spec, h⟩ := admitted_of_ok hok
  have hmem := (workload?_some h.known).1
  obtain ⟨command, hfits⟩ := fits_of_mem hmem
  have hbound := boundAttrs_bound h.names hfits
  have hparse := parseArgs_cliArgs h hfits
  obtain ⟨argv, useSudo, hcmd, hargs⟩ := makeCmd_local h hlocal rootOk
  rw [h.workload, ← passes_iff hmem h hfits hbound]
  constructor
  · rintro ⟨argv', useSudo', a, hcmd', hparse', -⟩
    rw [hcmd] at hcmd'
    cases hcmd'
    rw [hargs, hparse] at hparse'
    exact ((preflight_ok_iff hbound).mp (reported_ok_iff.mp hparse')).2
  · intro hpass
    refine ⟨argv, useSudo, boundNamespace command (boundAttrs command req), hcmd, ?_, ?_⟩
    · rw [hargs, hparse, reported_ok_iff]
      exact (preflight_ok_iff hbound).mpr ⟨rfl, hpass⟩
    · exact ⟨h.workload ▸ hfits.named, hbound.target, hbound.src, hbound.param⟩

/-! ## Requests -/

/-- A dashboard that runs its commands on this host. -/
def localEnv : Env := ⟨[], "/home/user/srx".toList, "/opt/srx".toList, true, "python3".toList⟩

theorem taken_iff_http :
    validateRequest (.dict [("workload".toList, .str "http".toList),
        ("target".toList, .str " 192.0.2.1".toList),
        ("params".toList, .dict [("port".toList, .str "08080".toList)])]) =
      .ok ⟨"http".toList, "192.0.2.1".toList, [],
        [("port".toList, .int 8080), ("path".toList, .str "/".toList)], none⟩ ∧
    (Taken localEnv true ⟨"http".toList, "192.0.2.1".toList, [],
        [("port".toList, .int 8080), ("path".toList, .str "/".toList)], none⟩ ↔
      CliAccepts "http".toList "192.0.2.1".toList) := by
  have hok : validateRequest (.dict [("workload".toList, .str "http".toList),
        ("target".toList, .str " 192.0.2.1".toList),
        ("params".toList, .dict [("port".toList, .str "08080".toList)])]) =
      .ok ⟨"http".toList, "192.0.2.1".toList, [],
        [("port".toList, .int 8080), ("path".toList, .str "/".toList)], none⟩ := by
    decide
  exact ⟨hok, taken_iff hok rfl true⟩

/-- The command line of a request does not read to a namespace. -/
def refused (env : Env) (rootOk : Bool) (req : ValidRequest) : Bool :=
  match makeCmd env req.workload req.target req.src req.params rootOk with
  | .ok (argv, useSudo) =>
      match parseArgs (scriptArgs argv useSudo) with
      | .ok _ => false
      | .error _ => true
  | .error _ => true

theorem not_taken {env : Env} {rootOk : Bool} {req : ValidRequest}
    (h : refused env rootOk req = true) : ¬ Taken env rootOk req := by
  rintro ⟨argv, useSudo, a, hcmd, hparse, -⟩
  unfold refused at h
  rw [hcmd] at h
  simp only at h
  rw [hparse] at h
  cases h

/-- A load of an IPv6 address. -/
def loadRequest : ValidRequest :=
  ⟨"wrk".toList, "2001:db8::1".toList, [], [("connections".toList, .int 100),
    ("threads".toList, .int 4), ("duration".toList, .int 60)], none⟩

/-- A crawl of a name with an underscore. -/
def crawlRequest : ValidRequest :=
  ⟨"crawl".toList, "my_host".toList, [], [("path".toList, .str "/".toList),
    ("port".toList, .int 80), ("scheme".toList, .str "http".toList),
    ("max-bytes".toList, .int 1048576), ("timeout".toList, .int 10)], none⟩

/-- The dashboard admits a load of an IPv6 address and a crawl of a name with an
underscore, and the CLI refuses both. -/
theorem admitted_not_taken :
    (validateRequest (.dict [("workload".toList, .str "wrk".toList),
        ("target".toList, .str "2001:db8::1".toList)]) = .ok loadRequest ∧
      ¬ Taken localEnv false loadRequest) ∧
    (validateRequest (.dict [("workload".toList, .str "crawl".toList),
        ("target".toList, .str "my_host".toList)]) = .ok crawlRequest ∧
      ¬ Taken localEnv false crawlRequest) := by
  refine ⟨⟨by decide, ?_⟩, ⟨by decide, ?_⟩⟩
  · exact not_taken (by decide)
  · exact not_taken (by decide)

end SrxProbe.Dashboard
