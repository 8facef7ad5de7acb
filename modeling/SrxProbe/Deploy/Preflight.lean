import SrxProbe.Deploy.Cli

/-!
# When the preflight passes

For each command, what its attributes have to be for `validate_args` to return. The
crawl and the load are left with the one check that reads the target.
-/

namespace SrxProbe.Deploy

open SrxProbe.Lib SrxProbe.Generators

/-! ## Attributes -/

section Attrs

variable {pairs more : List (PyStr × PyValue)} {attrs : Attrs} {d : PyStr} {v : PyValue}

theorem setAttrs_of_notMem (h : d ∉ pairs.map Prod.fst) : setAttrs pairs attrs d = attrs d := by
  induction pairs generalizing attrs with
  | nil => rfl
  | cons entry rest ih =>
      rw [List.map_cons, List.mem_cons, not_or] at h
      show setAttrs rest (update attrs entry.1 (some entry.2)) d = attrs d
      rw [ih h.2, update_of_ne _ _ h.1]

theorem setAttrs_of_mem (hnodup : (pairs.map Prod.fst).Nodup) (h : (d, v) ∈ pairs) :
    setAttrs pairs attrs d = some v := by
  induction pairs generalizing attrs with
  | nil => cases h
  | cons entry rest ih =>
      rw [List.map_cons, List.nodup_cons] at hnodup
      show setAttrs rest (update attrs entry.1 (some entry.2)) d = some v
      rcases List.mem_cons.mp h with rfl | h
      · rw [setAttrs_of_notMem hnodup.1, update_self]
      · exact ih hnodup.2 h

end Attrs

variable {a : Namespace} {command : Command}

/-- A check whose value is not used. -/
theorem discard_ok_iff {α : Type} {x : Except PyErr α} :
    (do let _ ← x) = .ok () ↔ ∃ v, x = .ok v := by
  cases x with
  | error e => simp [bind, Except.bind]
  | ok v => simp [bind, Except.bind, pure, Except.pure]

theorem attr_ok {dest : String} {v : PyValue} (h : a.attrs dest.toList = some v) :
    a.attr dest = .ok v := by
  unfold Namespace.attr
  rw [h, orRaise_some]

theorem attrStr_ok {dest : String} {s : PyStr} (h : a.attrs dest.toList = some (.str s)) :
    a.attrStr dest = .ok s := by
  unfold Namespace.attrStr
  rw [attr_ok h, ok_bind]
  rfl

/-! ## The port -/

theorem validatePort_unset (h : a.attrs "port".toList = none) :
    validatePort a command = .ok () := by
  unfold validatePort
  rw [h]

theorem validatePort_int {n : Int} (h : a.attrs "port".toList = some (.int n))
    (hne : command ≠ .flood) : validatePort a command = .ok () ↔ 1 ≤ n ∧ n ≤ 65535 := by
  unfold validatePort
  rw [h]
  simp only
  rw [show isIcmpFlood a command = .ok false from if_neg hne, ok_bind]
  exact boundedInt_bind_ok_iff.trans (and_iff_left rfl)

theorem validatePort_flood {n : Int} {type : PyStr} (h : a.attrs "port".toList = some (.int n))
    (htype : a.attrs "type".toList = some (.str type)) :
    validatePort a .flood = .ok () ↔ (if type = "icmp".toList then 0 else 1) ≤ n ∧ n ≤ 65535 := by
  have hicmp : isIcmpFlood a .flood = .ok (decide (type = "icmp".toList)) := by
    unfold isIcmpFlood
    rw [if_pos rfl, attr_ok htype]
    rfl
  unfold validatePort
  rw [h]
  simp only
  rw [hicmp, ok_bind]
  simp only [decide_eq_true_eq]
  exact boundedInt_bind_ok_iff.trans (and_iff_left rfl)

/-! ## The commands -/

/-- The commands that are checked for their port alone. -/
def plainCommands : List Command :=
  [.http, .dns, .handshake, .eicar, .gtube, .malformed, .badcsum, .deny]

theorem validateArgs_plain (h : command ∈ plainCommands) :
    validateArgs a command = .ok () ↔ validatePort a command = .ok () := by
  unfold validateArgs
  simp only
  rw [seq_ok_iff]
  simp only [plainCommands, List.mem_cons, List.not_mem_nil, or_false] at h
  rcases h with rfl | rfl | rfl | rfl | rfl | rfl | rfl | rfl <;> exact and_iff_left rfl

theorem validateArgs_all {n : Int} (hport : a.attrs "port".toList = none)
    (hduration : a.attrs "duration".toList = some (.int n)) :
    validateArgs a .all = .ok () ↔ 1 ≤ n ∧ n ≤ a.limitsOf.maxDurationS := by
  unfold validateArgs
  simp only
  rw [validatePort_unset hport, ok_bind, attr_ok hduration, ok_bind]
  exact boundedInt_bind_ok_iff.trans (and_iff_left rfl)

theorem validateArgs_scan {n : Int} (hport : a.attrs "port".toList = none)
    (hports : a.attrs "max_ports".toList = some (.int n)) :
    validateArgs a .scan = .ok () ↔ 1 ≤ n ∧ n ≤ a.limitsOf.maxPorts := by
  unfold validateArgs
  simp only
  rw [validatePort_unset hport, ok_bind, attr_ok hports, ok_bind]
  unfold WorkloadLimits.scan
  exact boundedInt_bind_ok_iff.trans (and_iff_left rfl)

theorem validateArgs_frag {port n : Int} (hport : a.attrs "port".toList = some (.int port))
    (hcount : a.attrs "count".toList = some (.int n)) :
    validateArgs a .frag = .ok () ↔
      (1 ≤ port ∧ port ≤ 65535) ∧ 1 ≤ n ∧ n ≤ a.limitsOf.maxFragments := by
  unfold validateArgs
  simp only
  rw [seq_ok_iff, validatePort_int hport (by decide), attr_ok hcount, ok_bind]
  exact and_congr_right fun _ => boundedInt_bind_ok_iff.trans (and_iff_left rfl)

theorem validateArgs_ttl {port n : Int} (hport : a.attrs "port".toList = some (.int port))
    (httl : a.attrs "ttl".toList = some (.int n)) :
    validateArgs a .ttl = .ok () ↔ (1 ≤ port ∧ port ≤ 65535) ∧ 1 ≤ n ∧ n ≤ 255 := by
  unfold validateArgs
  simp only
  rw [seq_ok_iff, validatePort_int hport (by decide), attr_ok httl, ok_bind]
  exact and_congr_right fun _ => boundedInt_bind_ok_iff.trans (and_iff_left rfl)

theorem validateArgs_flood {port count rate : Int} {type : PyStr}
    (htype : a.attrs "type".toList = some (.str type))
    (hknown : type ∈ ["syn".toList, "icmp".toList, "udp".toList])
    (hport : a.attrs "port".toList = some (.int port))
    (hcount : a.attrs "count".toList = some (.int count))
    (hrate : a.attrs "rate".toList = some (.int rate)) :
    validateArgs a .flood = .ok () ↔
      ((if type = "icmp".toList then 0 else 1) ≤ port ∧ port ≤ 65535) ∧
        (1 ≤ count ∧ count ≤ a.limitsOf.maxPackets) ∧ (1 ≤ rate ∧ rate ≤ a.limitsOf.maxRatePps) ∧
        count * WorkloadLimits.intervalUs rate ≤ a.limitsOf.maxDurationS * 1000000 := by
  have hknown' : ¬ (["syn".toList, "icmp".toList, "udp".toList].all fun name =>
      !(PyValue.str type).isStr name) = true := by
    intro hall
    have hno := List.all_eq_true.mp hall type hknown
    simp [PyValue.isStr] at hno
  have hhashable : ¬ (PyValue.str type).hashable = false := Bool.noConfusion
  have hicmp : (PyValue.str type).isStr "icmp".toList = decide (type = "icmp".toList) := rfl
  unfold validateArgs
  simp only
  rw [seq_ok_iff, validatePort_flood hport htype, attr_ok htype, attr_ok hport, attr_ok hcount,
    attr_ok hrate]
  simp only [ok_bind]
  unfold WorkloadLimits.flood
  simp only [raiseIf_of_not hhashable, raiseIf_of_not hknown', ok_bind, hicmp, decide_eq_true_eq,
    boundedInt_bind_ok_iff, raiseIf_ok_iff, gt_iff_lt, Int.not_lt]
  -- the port is checked a second time
  constructor
  · rintro ⟨hport, -, hcount, hrate, hpace⟩
    exact ⟨hport, hcount, hrate, hpace⟩
  · rintro ⟨hport, hcount, hrate, hpace⟩
    exact ⟨hport, hport, hcount, hrate, hpace⟩

theorem validateArgs_iperf {port duration parallel : Int}
    (hport : a.attrs "port".toList = some (.int port))
    (hduration : a.attrs "duration".toList = some (.int duration))
    (hparallel : a.attrs "parallel".toList = some (.int parallel)) :
    validateArgs a .iperf = .ok () ↔ (1 ≤ port ∧ port ≤ 65535) ∧
      (1 ≤ duration ∧ duration ≤ a.limitsOf.maxDurationS) ∧
      1 ≤ parallel ∧ parallel ≤ a.limitsOf.maxParallel := by
  unfold validateArgs
  simp only
  rw [seq_ok_iff, validatePort_int hport (by decide), attr_ok hduration, attr_ok hparallel,
    attr_ok hport]
  simp only [ok_bind]
  unfold WorkloadLimits.iperf
  simp only [boundedInt_bind_ok_iff]
  constructor
  · rintro ⟨hport, hduration, hparallel, -⟩
    exact ⟨hport, hduration, hparallel⟩
  · rintro ⟨hport, hduration, hparallel⟩
    exact ⟨hport, hduration, hparallel, hport, rfl⟩

/-- A load within its ceilings is left with the port of its URL. -/
theorem validateArgs_wrk {connections threads duration : Int} {target : PyStr}
    (hport : a.attrs "port".toList = none)
    (hconnections : a.attrs "connections".toList = some (.int connections))
    (hthreads : a.attrs "threads".toList = some (.int threads))
    (hduration : a.attrs "duration".toList = some (.int duration))
    (hurl : a.attrs "url".toList = some .none)
    (htarget : a.attrs "target".toList = some (.str target)) :
    validateArgs a .wrk = .ok () ↔
      (1 ≤ connections ∧ connections ≤ a.limitsOf.maxConnections) ∧
        (1 ≤ threads ∧ threads ≤ min a.limitsOf.maxThreads connections) ∧
        (1 ≤ duration ∧ duration ≤ a.limitsOf.maxDurationS) ∧
        ∃ n, httpPort ("http://".toList ++ target ++ "/".toList) = .ok n := by
  have hload : loadUrl a = .ok ("http://".toList ++ target ++ "/".toList) := by
    unfold loadUrl
    rw [attr_ok hurl, ok_bind]
    show (a.attr "target" >>= fun target => orRaise target.text? .other >>= _) = _
    rw [attr_ok htarget]
    rfl
  unfold validateArgs
  simp only
  rw [validatePort_unset hport, ok_bind, attr_ok hconnections, attr_ok hthreads, attr_ok hduration,
    hload]
  simp only [ok_bind]
  unfold WorkloadLimits.wrk
  rw [seq_ok_iff]
  simp only [boundedInt_bind_ok_iff, discard_ok_iff]
  constructor
  · rintro ⟨⟨hconnections, hthreads, hduration, -⟩, hurl⟩
    exact ⟨hconnections, hthreads, hduration, hurl⟩
  · rintro ⟨hconnections, hthreads, hduration, hurl⟩
    exact ⟨⟨hconnections, hthreads, hduration, rfl⟩, hurl⟩

theorem validateLimits_ok_iff {bytes timeout : Int} :
    validateLimits (.int bytes) (.int timeout) = .ok () ↔
      (1 ≤ bytes ∧ bytes ≤ maxBytes) ∧ 1 ≤ timeout ∧ timeout ≤ maxTimeout := by
  have hlimit : ∀ (name : PyStr) (n maximum : Int),
      validateLimit name (.int n) maximum = .ok () ↔ 1 ≤ n ∧ n ≤ maximum := by
    intro name n maximum
    unfold validateLimit
    simp only
    split <;> simp_all
  unfold validateLimits
  rw [seq_ok_iff, hlimit, hlimit]

/-- A crawl within its limits is left with the URL of its target. -/
theorem validateArgs_crawl {port bytes timeout : Int} {target path scheme : PyStr}
    (hport : a.attrs "port".toList = some (.int port))
    (hbytes : a.attrs "max_bytes".toList = some (.int bytes))
    (htimeout : a.attrs "timeout".toList = some (.int timeout))
    (htarget : a.attrs "target".toList = some (.str target))
    (hpath : a.attrs "path".toList = some (.str path))
    (hscheme : a.attrs "scheme".toList = some (.str scheme)) :
    validateArgs a .crawl = .ok () ↔ (1 ≤ port ∧ port ≤ 65535) ∧
      ((1 ≤ bytes ∧ bytes ≤ maxBytes) ∧ 1 ≤ timeout ∧ timeout ≤ maxTimeout) ∧
      ∃ url, targetUrl target path scheme (.int port) = .ok url := by
  unfold validateArgs
  simp only
  rw [seq_ok_iff, validatePort_int hport (by decide), attr_ok hbytes, attr_ok htimeout,
    attr_ok hport, attrStr_ok htarget, attrStr_ok hpath, attrStr_ok hscheme]
  simp only [ok_bind]
  rw [seq_ok_iff, validateLimits_ok_iff, discard_ok_iff]

/-! ## The suite -/

section Suite

variable {name : String} {func : Command} {overrides : List (String × PyValue)}

theorem map_fst_overrides (overrides : List (String × PyValue)) :
    (overrides.map fun entry => (entry.1.toList, entry.2)).map Prod.fst =
      (overrides.map Prod.fst).map String.toList := by
  rw [List.map_map, List.map_map]
  rfl

theorem workload_attr (keys : List String) (hkeys : overrides.map Prod.fst = keys)
    (hnodup : (keys.map String.toList).Nodup) {d : String} {v : PyValue}
    (h : (d, v) ∈ overrides) : (workload a name func overrides).args.attrs d.toList = some v := by
  refine setAttrs_of_mem ?_ (List.mem_map.mpr ⟨(d, v), h, rfl⟩)
  rw [map_fst_overrides, hkeys]
  exact hnodup

theorem workload_attr_of_notMem (keys : List String) (hkeys : overrides.map Prod.fst = keys)
    {d : String} (h : d.toList ∉ keys.map String.toList) :
    (workload a name func overrides).args.attrs d.toList = a.attrs d.toList := by
  refine setAttrs_of_notMem ?_
  rw [map_fst_overrides, hkeys]
  exact h

/-- A workload of the suite whose port is overridden, and which is checked for it alone. -/
theorem workload_plain (keys : List String) (port : Int) (hfunc : func ∈ plainCommands)
    (hkeys : overrides.map Prod.fst = keys) (hnodup : (keys.map String.toList).Nodup)
    (hport : ("port", .int port) ∈ overrides) (hmin : 1 ≤ port) (hmax : port ≤ 65535) :
    validateArgs (workload a name func overrides).args func = .ok () := by
  have hne : func ≠ .flood := by
    rintro rfl
    exact absurd hfunc (by decide)
  rw [validateArgs_plain hfunc, validatePort_int (workload_attr keys hkeys hnodup hport) hne]
  exact ⟨hmin, hmax⟩

theorem workload_scan {type : PyStr} (hlimits : a.limitsOf = defaultLimits)
    (hport : a.attrs "port".toList = none) :
    validateArgs (workload a name .scan [("type", .str type), ("max_ports", .int 1024)]).args
      .scan = .ok () := by
  rw [validateArgs_scan
    ((workload_attr_of_notMem ["type", "max_ports"] rfl (by decide)).trans hport)
    (workload_attr ["type", "max_ports"] rfl (by decide) (v := .int 1024) (by simp))]
  refine ⟨by decide, ?_⟩
  show 1024 ≤ a.limitsOf.maxPorts
  rw [hlimits]
  decide

theorem workload_flood {type : PyStr} {port : Int} (hlimits : a.limitsOf = defaultLimits)
    (hknown : type ∈ ["syn".toList, "icmp".toList, "udp".toList])
    (hmin : (if type = "icmp".toList then 0 else 1) ≤ port) (hmax : port ≤ 65535) :
    validateArgs (workload a name .flood [("type", .str type), ("port", .int port),
      ("count", .int 2000), ("rate", .int 500)]).args .flood = .ok () := by
  have hattr : ∀ {d : String} {v : PyValue}, (d, v) ∈ [("type", .str type), ("port", .int port),
      ("count", .int 2000), ("rate", PyValue.int 500)] →
      (workload a name .flood [("type", .str type), ("port", .int port), ("count", .int 2000),
        ("rate", .int 500)]).args.attrs d.toList = some v :=
    workload_attr ["type", "port", "count", "rate"] rfl (by decide)
  rw [validateArgs_flood (hattr (by simp)) hknown (hattr (v := .int port) (by simp))
    (hattr (v := .int 2000) (by simp)) (hattr (v := .int 500) (by simp))]
  refine ⟨⟨hmin, hmax⟩, ⟨by decide, ?_⟩, ⟨by decide, ?_⟩, ?_⟩
  · show 2000 ≤ a.limitsOf.maxPackets
    rw [hlimits]
    decide
  · show 500 ≤ a.limitsOf.maxRatePps
    rw [hlimits]
    decide
  · show 2000 * WorkloadLimits.intervalUs 500 ≤ a.limitsOf.maxDurationS * 1000000
    rw [hlimits]
    decide

theorem workload_ttl :
    validateArgs (workload a name .ttl [("port", .int 80), ("ttl", .int 1)]).args .ttl =
      .ok () := by
  have hkeys : (["port", "ttl"].map String.toList).Nodup := by decide
  rw [validateArgs_ttl (workload_attr ["port", "ttl"] rfl hkeys (v := .int 80) (by simp))
    (workload_attr ["port", "ttl"] rfl hkeys (v := .int 1) (by simp))]
  decide

theorem workload_frag (hlimits : a.limitsOf = defaultLimits) :
    validateArgs (workload a name .frag [("port", .int 80), ("count", .int 8)]).args .frag =
      .ok () := by
  have hkeys : (["port", "count"].map String.toList).Nodup := by decide
  rw [validateArgs_frag (workload_attr ["port", "count"] rfl hkeys (v := .int 80) (by simp))
    (workload_attr ["port", "count"] rfl hkeys (v := .int 8) (by simp))]
  refine ⟨by decide, by decide, ?_⟩
  show 8 ≤ a.limitsOf.maxFragments
  rw [hlimits]
  decide

/-- The load is the one task of the suite whose check reads the target. -/
theorem workload_wrk_iff {duration : Int} {target : PyStr} (hlimits : a.limitsOf = defaultLimits)
    (hport : a.attrs "port".toList = none) (hmin : 1 ≤ duration)
    (hmax : duration ≤ defaultLimits.maxDurationS)
    (htarget : a.attrs "target".toList = some (.str target)) :
    validateArgs (workload a "wrk" .wrk [("url", .none), ("connections", .int 100),
      ("threads", .int 4), ("duration", .int duration)]).args .wrk = .ok () ↔
      ∃ n, httpPort ("http://".toList ++ target ++ "/".toList) = .ok n := by
  have hattr : ∀ {d : String} {v : PyValue}, (d, v) ∈ [("url", .none), ("connections", .int 100),
      ("threads", .int 4), ("duration", PyValue.int duration)] →
      (workload a "wrk" .wrk [("url", .none), ("connections", .int 100), ("threads", .int 4),
        ("duration", .int duration)]).args.attrs d.toList = some v :=
    workload_attr ["url", "connections", "threads", "duration"] rfl (by decide)
  have hkept : ∀ {d : String},
      d.toList ∉ ["url", "connections", "threads", "duration"].map String.toList →
      (workload a "wrk" .wrk [("url", .none), ("connections", .int 100), ("threads", .int 4),
        ("duration", .int duration)]).args.attrs d.toList = a.attrs d.toList :=
    workload_attr_of_notMem ["url", "connections", "threads", "duration"] rfl
  rw [validateArgs_wrk ((hkept (by decide)).trans hport)
    (hattr (v := .int 100) (by simp)) (hattr (v := .int 4) (by simp))
    (hattr (v := .int duration) (by simp)) (hattr (by simp)) ((hkept (by decide)).trans htarget)]
  have hceilings : (1 ≤ (100 : Int) ∧ 100 ≤ a.limitsOf.maxConnections) ∧
      (1 ≤ (4 : Int) ∧ 4 ≤ min a.limitsOf.maxThreads 100) ∧
      1 ≤ duration ∧ duration ≤ a.limitsOf.maxDurationS := by
    rw [hlimits]
    exact ⟨by decide, by decide, hmin, hmax⟩
  constructor
  · exact fun h => h.2.2.2
  · exact fun h => ⟨hceilings.1, hceilings.2.1, hceilings.2.2, h⟩

theorem workload_iperf {duration : Int} (hlimits : a.limitsOf = defaultLimits)
    (hmin : 1 ≤ duration) (hmax : duration ≤ defaultLimits.maxDurationS) :
    validateArgs (workload a name .iperf [("port", .int 5201), ("duration", .int duration),
      ("parallel", .int 4)]).args .iperf = .ok () := by
  have hattr : ∀ {d : String} {v : PyValue}, (d, v) ∈ [("port", .int 5201),
      ("duration", .int duration), ("parallel", PyValue.int 4)] →
      (workload a name .iperf [("port", .int 5201), ("duration", .int duration),
        ("parallel", .int 4)]).args.attrs d.toList = some v :=
    workload_attr ["port", "duration", "parallel"] rfl (by decide)
  rw [validateArgs_iperf (hattr (v := .int 5201) (by simp)) (hattr (v := .int duration) (by simp))
    (hattr (v := .int 4) (by simp))]
  show _ ∧ (_ ∧ duration ≤ a.limitsOf.maxDurationS) ∧ _ ∧ 4 ≤ a.limitsOf.maxParallel
  rw [hlimits]
  exact ⟨by decide, ⟨hmin, hmax⟩, by decide⟩

end Suite

/-- A suite within its ceilings is left with the port of the load's URL. -/
theorem buildAllWorkloads_ok_iff {duration : Int} {target : PyStr}
    (hlimits : a.limitsOf = defaultLimits) (hport : a.attrs "port".toList = none)
    (hduration : a.attrs "duration".toList = some (.int duration)) (hmin : 1 ≤ duration)
    (hmax : duration ≤ defaultLimits.maxDurationS)
    (htarget : a.attrs "target".toList = some (.str target)) :
    (∃ workloads, buildAllWorkloads a = .ok workloads) ↔
      ∃ n, httpPort ("http://".toList ++ target ++ "/".toList) = .ok n := by
  have hcount : boundedInt "concurrent workloads".toList (.int (suite a (.int duration)).length)
      a.limitsOf.maxWorkloads 1 = .ok 18 := by
    rw [hlimits]
    show boundedInt _ (.int 18) 32 1 = .ok 18
    exact boundedInt_ok (by decide) (by decide)
  have hwrk := workload_wrk_iff hlimits hport hmin hmax htarget
  have hsuite : (∀ w ∈ suite a (.int duration), validateArgs w.args w.func = .ok ()) ↔
      ∃ n, httpPort ("http://".toList ++ target ++ "/".toList) = .ok n := by
    constructor
    · intro h
      exact hwrk.mp (h _ (by simp [suite]))
    · intro h w hw
      simp only [suite, List.map_cons, List.map_nil, List.cons_append, List.nil_append,
        List.mem_cons, List.not_mem_nil, or_false] at hw
      -- in the order of the suite: no other task can fail, whatever the target
      rcases hw with rfl | rfl | rfl | rfl | rfl | rfl | rfl | rfl | rfl | rfl | rfl | rfl | rfl |
        rfl | rfl | rfl | rfl | rfl
      · exact workload_plain ["path", "port"] 80 (by decide) rfl (by decide) (by simp) (by decide)
          (by decide)
      · exact (validateArgs_plain (show Command.dns ∈ plainCommands by decide)).mpr
          (validatePort_unset ((workload_attr_of_notMem ["qname"] rfl (by decide)).trans hport))
      · exact workload_plain ["port", "app"] 21 (by decide) rfl (by decide) (by simp) (by decide)
          (by decide)
      · exact workload_plain ["port"] 80 (by decide) rfl (by decide) (by simp) (by decide)
          (by decide)
      · exact workload_plain ["port"] 80 (by decide) rfl (by decide) (by simp) (by decide)
          (by decide)
      · exact workload_scan hlimits hport
      · exact workload_scan hlimits hport
      · exact workload_scan hlimits hport
      · exact workload_flood hlimits (by decide) (by decide) (by decide)
      · exact workload_flood hlimits (by decide) (by decide) (by decide)
      · exact workload_flood hlimits (by decide) (by decide) (by decide)
      · exact workload_plain ["port"] 80 (by decide) rfl (by decide) (by simp) (by decide)
          (by decide)
      · exact workload_plain ["port"] 80 (by decide) rfl (by decide) (by simp) (by decide)
          (by decide)
      · exact workload_ttl
      · exact workload_frag hlimits
      · exact workload_plain ["port"] 9 (by decide) rfl (by decide) (by simp) (by decide)
          (by decide)
      · exact hwrk.mpr h
      · exact workload_iperf hlimits hmin hmax
  unfold buildAllWorkloads
  rw [attr_ok hduration, ok_bind]
  simp only
  rw [hcount, ok_bind, ← hsuite, ← forM_ok_iff]
  constructor
  · rintro ⟨workloads, h⟩
    obtain ⟨u, hforM, -⟩ := bind_ok_iff.mp h
    exact hforM
  · intro h
    exact ⟨_, by rw [h, ok_bind]⟩

/-! ## What the check raises -/

/-- The exception is a `ValueError`. -/
def isValueError : PyErr → Bool
  | .valueError _ | .stdValueError | .admissionError _ => true
  | _ => false

/-- The attributes that `validate_args` reads for a command. -/
def readDests : Command → List String
  | .crawl => ["max_bytes", "timeout", "target", "path", "scheme", "port"]
  | .all => ["duration"]
  | .scan => ["max_ports"]
  | .flood => ["type", "port", "count", "rate"]
  | .frag => ["count"]
  | .ttl => ["ttl"]
  | .wrk => ["connections", "threads", "duration", "url", "target"]
  | .iperf => ["duration", "parallel", "port"]
  | _ => []

/-- The namespace has all that `validate_args` reads for the command, in types that its
checks take: the type of a flood can be looked up, and the URL of a load is a text. -/
structure Complete (a : Namespace) (command : Command) : Prop where
  set : ∀ dest ∈ readDests command, ∃ v, a.attr dest = .ok v
  floodType : command = .flood → ∀ v, a.attr "type" = .ok v → v.hashable = true
  url : command = .wrk → ∀ v, a.attr "url" = .ok v → v.truthy = true → v.str?.isSome = true
  target : command = .wrk → ∀ v, a.attr "target" = .ok v → v.text?.isSome = true

section raises

variable {command : Command}

theorem only_boundedInt (name : PyStr) (value : PyValue) (maximum minimum : Int) :
    OnlyRaises (isValueError · = true) (boundedInt name value maximum minimum) := by
  intro e he
  obtain ⟨message, rfl⟩ := boundedInt_error he
  rfl

theorem only_validateLimits (bytes timeout : PyValue) :
    OnlyRaises (isValueError · = true) (validateLimits bytes timeout) := by
  have hlimit : ∀ name value maximum,
      OnlyRaises (isValueError · = true) (validateLimit name value maximum) := by
    intro name value maximum
    unfold validateLimit
    split
    · split
      · exact .ok ()
      · exact .error rfl
    · exact .error rfl
  exact .bind (hlimit _ _ _) fun _ _ => hlimit _ _ _

theorem only_validatePath (path : PyStr) :
    OnlyRaises (isValueError · = true) (validatePath path) := by
  unfold validatePath
  split
  · exact .error rfl
  · exact .ok ()

theorem only_validateUrl (url : PyStr) :
    OnlyRaises (isValueError · = true) (validateUrl url) := by
  refine .bind (.raiseIf rfl) fun _ _ => ?_
  refine .bind (.orRaise rfl) fun parsed _ => ?_
  refine .bind (.raiseIf rfl) fun _ _ => ?_
  refine .bind (.orRaise rfl) fun port _ => ?_
  refine .bind (.raiseIf rfl) fun _ _ => ?_
  refine .bind (.raiseIf rfl) fun _ _ => ?_
  exact .bind (only_validatePath _) fun _ _ => .ok parsed

theorem only_targetUrl (target path scheme : PyStr) (port : PyValue) :
    OnlyRaises (isValueError · = true) (targetUrl target path scheme port) := by
  refine .bind (only_validatePath path) fun _ _ => ?_
  refine .bind (.raiseIf rfl) fun _ _ => ?_
  refine .bind ?_ fun host _ => .bind ?_ fun suffix _ => ?_
  · unfold targetHost
    split
    · exact .ok _
    · exact .ok _
    · split
      · exact .ok _
      · exact .error rfl
  · unfold portSuffix
    split
    · exact .ok _
    · split
      · exact .ok _
      · exact .error rfl
    · exact .error rfl
  · exact .bind (only_validateUrl _) fun _ _ => .ok _

theorem only_httpPort (url : PyStr) : OnlyRaises (isValueError · = true) (httpPort url) := by
  refine .bind (.orRaise rfl) fun parsed _ => ?_
  refine .bind (.raiseIf rfl) fun _ _ => ?_
  exact .bind (.orRaise rfl) fun port _ => only_boundedInt _ _ _ _

/-- What is set does not raise. -/
theorem Complete.attr {dest : String} (h : Complete a command) (hdest : dest ∈ readDests command) :
    OnlyRaises (isValueError · = true) (a.attr dest) := by
  obtain ⟨v, hv⟩ := h.set dest hdest
  rw [hv]
  exact .ok v

theorem Complete.attrStr {dest : String} (h : Complete a command)
    (hdest : dest ∈ readDests command) : OnlyRaises (isValueError · = true) (a.attrStr dest) :=
  .bind (h.attr hdest) fun _ _ => .ok _

theorem only_validatePort (h : Complete a command) :
    OnlyRaises (isValueError · = true) (validatePort a command) := by
  unfold validatePort
  split
  · exact .ok ()
  · exact .ok ()
  · refine .bind ?_ fun icmp _ => .bind (only_boundedInt _ _ _ _) fun _ _ => .ok ()
    unfold isIcmpFlood
    split
    · rename_i hflood
      subst hflood
      exact .map (h.attr (by decide)) _
    · exact .ok false

theorem only_loadUrl (h : Complete a .wrk) : OnlyRaises (isValueError · = true) (loadUrl a) := by
  refine .bind (h.attr (by decide)) fun url hurl => ?_
  split
  · rename_i htruthy
    obtain ⟨s, hs⟩ := Option.isSome_iff_exists.mp (h.url rfl url hurl htruthy)
    rw [hs]
    exact .ok s
  · refine .bind (h.attr (by decide)) fun target htarget => ?_
    obtain ⟨s, hs⟩ := Option.isSome_iff_exists.mp (h.target rfl target htarget)
    rw [hs]
    exact .ok _

/-- **What is refused of a complete namespace is refused with a `ValueError`.** -/
theorem only_validateArgs (h : Complete a command) :
    OnlyRaises (isValueError · = true) (validateArgs a command) := by
  refine .bind (only_validatePort h) fun _ _ => ?_
  cases command with
  | crawl =>
      refine .bind (h.attr (by decide)) fun bytes _ => .bind (h.attr (by decide)) fun timeout _ => ?_
      refine .bind (only_validateLimits bytes timeout) fun _ _ => ?_
      refine .bind (h.attrStr (by decide)) fun target _ => ?_
      refine .bind (h.attrStr (by decide)) fun path _ => ?_
      refine .bind (h.attrStr (by decide)) fun scheme _ => ?_
      refine .bind (h.attr (by decide)) fun port _ => ?_
      exact .bind (only_targetUrl target path scheme port) fun _ _ => .ok ()
  | all =>
      exact .bind (h.attr (by decide)) fun _ _ => .bind (only_boundedInt _ _ _ _) fun _ _ => .ok ()
  | scan =>
      exact .bind (h.attr (by decide)) fun _ _ => .bind (only_boundedInt _ _ _ _) fun _ _ => .ok ()
  | frag =>
      exact .bind (h.attr (by decide)) fun _ _ => .bind (only_boundedInt _ _ _ _) fun _ _ => .ok ()
  | ttl =>
      exact .bind (h.attr (by decide)) fun _ _ => .bind (only_boundedInt _ _ _ _) fun _ _ => .ok ()
  | flood =>
      refine .bind (h.attr (by decide)) fun type htype => ?_
      refine .bind (h.attr (by decide)) fun port _ => ?_
      refine .bind (h.attr (by decide)) fun count _ => ?_
      refine .bind (h.attr (by decide)) fun rate _ => ?_
      have hhashable := h.floodType rfl type htype
      refine .bind ?_ fun _ _ => .bind (.raiseIf rfl) fun _ _ => ?_
      · rw [raiseIf_of_not (by rw [hhashable]; exact Bool.noConfusion)]
        exact .ok ()
      · refine .bind (only_boundedInt _ _ _ _) fun _ _ => ?_
        refine .bind (only_boundedInt _ _ _ _) fun _ _ => ?_
        exact .bind (only_boundedInt _ _ _ _) fun _ _ => .raiseIf rfl
  | wrk =>
      refine .bind (h.attr (by decide)) fun connections _ => ?_
      refine .bind (h.attr (by decide)) fun threads _ => ?_
      refine .bind (h.attr (by decide)) fun duration _ => ?_
      refine .bind ?_ fun _ _ => ?_
      · refine .bind (only_boundedInt _ _ _ _) fun n _ => ?_
        refine .bind (only_boundedInt _ _ _ _) fun _ _ => ?_
        exact .bind (only_boundedInt _ _ _ _) fun _ _ => .ok ()
      · exact .bind (only_loadUrl h) fun url _ => .bind (only_httpPort url) fun _ _ => .ok ()
  | iperf =>
      refine .bind (h.attr (by decide)) fun duration _ => ?_
      refine .bind (h.attr (by decide)) fun parallel _ => ?_
      refine .bind (h.attr (by decide)) fun port _ => ?_
      refine .bind (only_boundedInt _ _ _ _) fun _ _ => ?_
      refine .bind (only_boundedInt _ _ _ _) fun _ _ => ?_
      exact .bind (only_boundedInt _ _ _ _) fun _ _ => .ok ()
  | _ => exact .ok ()

end raises

end SrxProbe.Deploy
