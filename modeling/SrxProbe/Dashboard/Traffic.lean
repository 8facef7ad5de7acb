import SrxProbe.Dashboard.Contract
import SrxProbe.Dashboard.Remote
import SrxProbe.Deploy.MainSafety
import SrxProbe.Deploy.Sending

/-!
# The traffic of a request

What a request that the dashboard has admitted comes to on the wire. The command line that is
made for it, on this host or for the client's shell, sends exactly what the request asks for.
-/

namespace SrxProbe.Dashboard

open SrxProbe.Lib SrxProbe.Lib.Shell SrxProbe.Generators SrxProbe.Deploy

/-! ## What a request asks for -/

/-- The value of a parameter by its name. -/
def ValidRequest.value (req : ValidRequest) (name : String) : PyValue :=
  ((req.params.lookup name.toList).map ParamValue.value).getD .none

/-- The source of the request's crafted packets: its own, or the one routed to the target. -/
structure SourceFor (m : Machine) (req : ValidRequest) (command : Command) (src : PyStr) :
    Prop where
  given : req.src ≠ [] → src = req.src
  routed : req.src = [] → command ∈ crafted → m.route req.target = .ok src

/-- The flow is one that the request asks for. -/
def Asked (m : Machine) (net : Network) (req : ValidRequest) (f : Flow) : Prop :=
  ∃ command src, Command.ofName? req.workload = some command ∧ SourceFor m req command src ∧
    Permits m.toHost net (commandRules net req.target src req.value command) f

/-- The arguments that the script is started with: on this host by the command line itself, on
the client by what the shell there finds behind `exec`. -/
def Started (env : Env) (argv : List PyStr) (useSudo : Bool) (args : List PyStr) : Prop :=
  if env.clientHost = [] then args = scriptArgs argv useSudo
  else ∃ line words, argv.getLast? = some line ∧
    tokens line = some (remoteTokens env.clientRepo words) ∧ args = scriptArgs words useSudo

/-! ## What the rules read -/

/-- A request gives what the rules of its command are read off, but for the URL of a load. -/
theorem catalogue_rules : workloads.all (fun spec => (Command.ofName? spec.name).all fun command =>
    (ruleNames command).all fun name =>
      name.toList ∈ spec.params.map ParamSpec.name || command = .wrk) = true := by decide

section bound

variable {spec : WorkloadSpec} {req : ValidRequest} {command : Command} {attrs : Attrs}

theorem value_of_mem (h : Admitted spec req) (hfits : Fits spec command) {name : String}
    {v : ParamValue} (hv : (name.toList, v) ∈ req.params) : req.value name = v.value := by
  unfold ValidRequest.value
  rw [Dict.lookup_of_mem (h.names ▸ hfits.names) hv]
  rfl

/-- What the workload has no parameter for has no value. -/
theorem value_of_notMem (h : Admitted spec req) {name : String}
    (hno : name.toList ∉ spec.params.map ParamSpec.name) : req.value name = .none := by
  unfold ValidRequest.value
  cases hlookup : req.params.lookup name.toList with
  | none => rfl
  | some v =>
      obtain ⟨before, after, hsplit, -⟩ := List.lookup_eq_some_iff.mp hlookup
      refine absurd ?_ hno
      rw [← h.names]
      exact List.mem_map.mpr ⟨(name.toList, v),
        hsplit ▸ List.mem_append_right before List.mem_cons_self, rfl⟩

theorem given_value (b : Bound spec req command attrs) (h : Admitted spec req)
    (hfits : Fits spec command) {name : String}
    (hname : name.toList ∈ spec.params.map ParamSpec.name) :
    (boundNamespace command attrs).given name = req.value name := by
  obtain ⟨param, hmem, hname⟩ := List.mem_map.mp hname
  obtain ⟨v, hv, -⟩ := h.entry hmem
  rw [hname] at hv
  rw [value_of_mem h hfits hv]
  unfold Namespace.given boundNamespace
  simp only
  rw [b.param _ hv]
  rfl

/-- The rules of a command are read off the request. -/
theorem rules_value (hmem : spec ∈ workloads) (b : Bound spec req command attrs)
    (h : Admitted spec req) (hfits : Fits spec command) (net : Network) (src : PyStr) :
    commandRules net req.target src (boundNamespace command attrs).given command =
      commandRules net req.target src req.value command := by
  have hall := List.all_eq_true.mp catalogue_rules spec hmem
  rw [hfits.named, Option.all_some, List.all_eq_true] at hall
  refine commandRules_congr fun name hname => ?_
  have hread := hall name hname
  simp only [Bool.or_eq_true, decide_eq_true_eq] at hread
  by_cases hparam : name.toList ∈ spec.params.map ParamSpec.name
  · exact given_value b h hfits hparam
  · -- a load has no URL of its own
    obtain rfl := hread.resolve_left hparam
    obtain rfl := List.mem_singleton.mp hname
    have hdests : "url".toList ∉ spec.params.map fun param => destOf param.name := by
      have hplain : ∀ spec ∈ workloads, "url".toList ∉ spec.params.map fun param =>
          destOf param.name := by decide
      exact hplain spec hmem
    have hdefault := b.default (strOption "url" .none) (by simp [options]) hdests
    unfold Namespace.given boundNamespace
    simp only
    rw [value_of_notMem h hparam, show destOf "url".toList = (strOption "url" .none).dest from rfl,
      hdefault]
    rfl

/-! ## The namespace of a request -/

/-- An `int` option has a number as its default, or none. -/
def HasNumber (option : OptionSpec) : Prop :=
  option.type ≠ .str → option.default ≠ .none → ∃ n, option.default = .int n

theorem default_number {option : OptionSpec} (hoption : option ∈ options command) :
    HasNumber option := by
  have hstr : ∀ name default, HasNumber (strOption name default) :=
    fun _ _ htype => absurd rfl htype
  have hchoice : ∀ name choices default, HasNumber (choiceOption name choices default) :=
    fun _ _ _ htype => absurd rfl htype
  have hint : ∀ name n, HasNumber (intOption name (.int n)) := fun _ n _ _ => ⟨n, rfl⟩
  have hnone : ∀ name, HasNumber (intOption name .none) := fun _ _ hno => absurd rfl hno
  have hduration : HasNumber durationOption := fun _ _ => ⟨60, rfl⟩
  have hall : ∀ option ∈ options command, HasNumber option := by
    cases command
    all_goals
      simp only [options, List.mem_cons, List.not_mem_nil, or_false, forall_eq_or_imp, forall_eq,
        hstr, hchoice, hint, hnone, hduration, and_self]
  exact hall option hoption

theorem typed_bound (b : Bound spec req command attrs) (h : Admitted spec req)
    (hfits : Fits spec command) : Typed (boundNamespace command attrs) command := by
  -- the value of an option is the parameter's or the default
  have hvalue : ∀ option ∈ options command, ∃ v, attrs option.dest = some v ∧
      (option.type ≠ .str → option.default ≠ .none → ∃ n, v = .int n) := by
    intro option hoption
    by_cases hdest : option.dest ∈ spec.params.map fun param => destOf param.name
    · obtain ⟨param, hparam, hname⟩ := List.mem_map.mp hdest
      obtain ⟨option', hoption', haccepts, -⟩ := hfits.option param hparam
      obtain ⟨v, hv, hvalid⟩ := h.entry hparam
      unfold accepts at haccepts
      simp only [Bool.and_eq_true, decide_eq_true_eq] at haccepts
      obtain ⟨⟨-, hdest'⟩, hkind⟩ := haccepts
      obtain rfl : option' = option :=
        List.inj_on_of_nodup_map hfits.optionDests hoption' hoption (hdest'.trans hname)
      refine ⟨v.value, by rw [← hname]; exact b.param _ hv, fun htype _ => ?_⟩
      cases v with
      | int n => exact ⟨n, rfl⟩
      | str s =>
          obtain ⟨-, default, choices, hstr, -⟩ := hvalid
          rw [hstr] at hkind
          simp only [Bool.and_eq_true, decide_eq_true_eq] at hkind
          exact absurd hkind.1 htype
    · exact ⟨option.default, b.default option hoption hdest, default_number hoption⟩
  refine ⟨fun option hoption => ?_, fun option hoption htype hdefault => ?_⟩
  · obtain ⟨v, hv, -⟩ := hvalue option hoption
    exact ⟨v, hv⟩
  · obtain ⟨v, hv, hint⟩ := hvalue option hoption
    obtain ⟨n, rfl⟩ := hint htype hdefault
    exact ⟨n, hv⟩

/-- A scan that is asked for has a type that the builder knows. -/
theorem scanType_bound (hmem : spec ∈ workloads) (b : Bound spec req command attrs)
    (h : Admitted spec req) (hfits : Fits spec command) (hscan : command = .scan) :
    ∃ type ∈ nmapScanFlags.map Prod.fst, attrs "type".toList = some (.str type) := by
  have hparam : ∀ spec ∈ workloads, Command.ofName? spec.name = some .scan →
      hasStr spec "type" (some (nmapScanFlags.map Prod.fst)) = true := by decide
  obtain ⟨type, htype, hchoice, -⟩ := b.readStr h "type".toList _
    (hparam spec hmem (hscan ▸ hfits.named)) rfl
  exact ⟨type, hchoice _ rfl, htype⟩

/-- A command line of the dashboard agrees to everything. -/
theorem yes_bound (h : Admitted spec req) (hfits : Fits spec command) :
    boundAttrs command req "yes".toList = some (.bool true) := by
  rw [boundAttrs_main h.names hfits (by decide)]
  refine setAttrs_of_mem ?_ ?_
  · rw [map_fst_frontAttrs]
    split <;> decide
  · unfold frontAttrs
    exact List.mem_append_right _ List.mem_cons_self

/-! ## The command line of a request -/

variable {m : Machine} {net : Network} {f : Flow} {src : PyStr}

/-- The source of a request is that of its namespace. -/
theorem sourceOf_bound (b : Bound spec req command attrs) :
    SourceOf m (boundNamespace command attrs) src ↔ SourceFor m req command src := by
  have hsrc := b.src
  have htarget : txt ((boundNamespace command attrs).given "target") = req.target :=
    txt_given "target" (attrStr_ok b.target) rfl
  constructor
  · intro h
    refine ⟨fun hne => ?_, fun hempty hcrafted => ?_⟩
    · rw [if_neg hne] at hsrc
      exact h.given _ hsrc
    · rw [if_pos hempty] at hsrc
      exact htarget ▸ h.routed hsrc hcrafted
  · intro h
    refine ⟨fun s hs => ?_, fun hnone hcrafted => ?_⟩
    · have heq := hsrc.symm.trans hs
      by_cases hempty : req.src = []
      · rw [if_pos hempty] at heq
        cases heq
      · rw [if_neg hempty] at heq
        cases heq
        exact h.given hempty
    · have heq := hsrc.symm.trans hnone
      by_cases hempty : req.src = []
      · rw [htarget]
        exact h.routed hempty hcrafted
      · rw [if_neg hempty] at heq
        cases heq

/-- `iperf3` takes what stands behind a `%` for a device. -/
def NoDevice (req : ValidRequest) : Prop :=
  req.workload ∈ ["iperf".toList, "all".toList] → '%' ∉ req.target

/-- A target of the dashboard is not read as an option. -/
theorem takes_target (hmem : spec ∈ workloads) (h : Admitted spec req)
    (hfits : Fits spec command) (hdevice : NoDevice req) : TakesTarget req.target command := by
  have hnamed : ∀ spec ∈ workloads, ∀ command ∈ [Command.iperf, Command.all],
      Command.ofName? spec.name = some command → spec.name ∈ ["iperf".toList, "all".toList] := by
    decide
  refine ⟨fun _ hdash => ?_, fun hcommand => hdevice ?_⟩
  · have halnum := h.plain.1
    rw [hdash] at halnum
    cases halnum
  · rw [h.workload]
    exact hnamed spec hmem command hcommand hfits.named

/-- What the command line of an admitted request sends, the request asks for. -/
theorem asked_of_emits (hmem : spec ∈ workloads) (h : Admitted spec req)
    (hfits : Fits spec command) (hdevice : NoDevice req)
    (hemits : Emits net readArgs m (cliArgs spec req.target req.src req.params) f) :
    CliAccepts spec.name req.target ∧ Asked m net req f := by
  have b := boundAttrs_bound h.names hfits
  obtain ⟨a, target, src, hparse, htarget, hsrc, -, hpermits⟩ :=
    permits_of_emits argparse_readArgs hemits
  rw [show parseWith readArgs _ = _ from parseArgs_cliArgs h hfits, reported_ok_iff] at hparse
  obtain ⟨rfl, hpass⟩ := (preflight_ok_iff b).mp hparse
  obtain rfl : req.target = target :=
    PyValue.str.inj (Option.some.inj (b.target.symm.trans htarget))
  refine ⟨(passes_iff hmem h hfits b).mp hpass, command, src, h.workload ▸ hfits.named,
    (sourceOf_bound b).mp hsrc, ?_⟩
  rw [← rules_value hmem b h hfits]
  exact hpermits (takes_target hmem h hfits hdevice)

/-- The source of a request is a text, or there is none. -/
theorem src_bound (b : Bound spec req command attrs) :
    attrs "src".toList = some .none ∨ ∃ s, attrs "src".toList = some (.str s) := by
  have hsrc := b.src
  by_cases hempty : req.src = []
  · rw [if_pos hempty] at hsrc
    exact .inl hsrc
  · rw [if_neg hempty] at hsrc
    exact .inr ⟨_, hsrc⟩

/-- The suite that the preflight has built is built again with the source in its place. -/
theorem suite_withSource {a' : Namespace} (b : Bound spec req .all attrs) (h : Admitted spec req)
    (hfits : Fits spec .all) (hlimits : a'.limitsOf = defaultLimits)
    (hattrs : ∀ d, d ≠ "src".toList → a'.attrs d = attrs d)
    (hvalid : validateArgs (boundNamespace .all attrs) .all = .ok ())
    (hbuild : ∃ workloads, buildAllWorkloads (boundNamespace .all attrs) = .ok workloads) :
    ∃ workloads, buildAllWorkloads a' = .ok workloads := by
  obtain ⟨d, hduration⟩ := (typed_bound b h hfits).duration (by simp [options])
  have hd : attrs "duration".toList = some (.int d) := attrInt_ok_iff.mp hduration
  have hport : attrs "port".toList = none := b.port_unset (by decide)
  obtain ⟨hmin, hmax⟩ := (validateArgs_all hport hd).mp hvalid
  have hurl := (buildAllWorkloads_ok_iff rfl hport hd hmin hmax b.target).mp hbuild
  exact (buildAllWorkloads_ok_iff hlimits ((hattrs "port".toList (by decide)).trans hport)
    ((hattrs "duration".toList (by decide)).trans hd) hmin hmax
    ((hattrs "target".toList (by decide)).trans b.target)).mpr hurl

/-- For what an admitted request asks for, its command line sends something. -/
theorem emits_of_asked (hmem : spec ∈ workloads) (h : Admitted spec req)
    (hfits : Fits spec command) (hdevice : NoDevice req)
    (haccepts : CliAccepts spec.name req.target)
    (hsrc : SourceFor m req command src)
    (hpermits : Permits m.toHost net (commandRules net req.target src req.value command) f) :
    ∃ f', f'.aim = f.aim ∧
      Emits net readArgs m (cliArgs spec req.target req.src req.params) f' := by
  have b := boundAttrs_bound h.names hfits
  let a := boundNamespace command (boundAttrs command req)
  obtain ⟨hvalid, hbuild⟩ := (passes_iff hmem h hfits b).mpr haccepts
  have hparse : parseArgs (cliArgs spec req.target req.src req.params) = .ok a := by
    rw [parseArgs_cliArgs h hfits, reported_ok_iff]
    exact (preflight_ok_iff b).mpr ⟨rfl, hvalid, hbuild⟩
  -- `main` puts the source in its place
  obtain ⟨a', hsource, hcmd, hlimits, hattrs, hcrafted⟩ :=
    withSource_of ((sourceOf_bound b).mpr hsrc) (src_bound b) b.target
  have hcmd' : a'.cmd = command := hcmd
  have hlimits' : a'.limitsOf = defaultLimits := by
    unfold Namespace.limitsOf
    rw [hlimits]
    rfl
  have hvalid' : validateArgs a' command = .ok () :=
    (validateArgs_congr hlimits hattrs).trans hvalid
  have hbuild' : command = .all → ∃ workloads, buildAllWorkloads a' = .ok workloads := by
    rintro rfl
    exact suite_withSource b h hfits hlimits' hattrs hvalid (hbuild rfl)
  have hready : Deploy.Ready a' command req.target src := by
    refine ⟨(typed_bound b h hfits).congr hattrs, hlimits',
      (hattrs _ (by decide)).trans b.target, takes_target hmem h hfits hdevice, hcrafted,
      fun hscan => ?_⟩
    rw [hattrs _ (by decide)]
    exact scanType_bound hmem b h hfits hscan
  -- the rules of what runs are those of the request
  have hrules : Permits m.toHost net (a'.rules net command) f := by
    have hread : a'.rules net a'.cmd = commandRules net req.target src a.given command :=
      rules_withSource hcmd hattrs b.target hcrafted
    rw [hcmd'] at hread
    rw [hread, rules_value hmem b h hfits]
    exact hpermits
  have hyes : a'.attrs "yes".toList = some (.bool true) :=
    (hattrs _ (by decide)).trans (yes_bound h hfits)
  subst hcmd'
  obtain ⟨action, hmem, f', hsends, haim⟩ := performed_sends hready hvalid' hbuild' hrules
  exact ⟨f', haim, _, main_ok hparse hsource hyes, action, hmem, hsends⟩

/-- A target of the dashboard has no bracket. -/
theorem not_hasBracketZone (h : Admitted spec req) : ¬ HasBracketZone req.target := by
  rintro ⟨ip, zone, hip, hbracket⟩
  obtain ⟨-, hsuffix⟩ := IpAddress.isScope_of_ipAddress hip zone rfl
  exact notMem_of_isPlain h.plain.2.2 (by decide) (hsuffix.subset hbracket)

/-- The target of a load has no port, and that of a scan is one host. -/
structure IsDirect (req : ValidRequest) : Prop where
  noPort : req.workload ∈ ["wrk".toList, "all".toList] → ':' ∉ req.target
  oneHost : req.workload ∈ ["scan".toList, "all".toList] → IsOneHost req.target

/-- What is asked for of such a target goes to the target. -/
theorem direct_request (hmem : spec ∈ workloads) (h : Admitted spec req)
    (hfits : Fits spec command) (hdirect : IsDirect req) :
    Direct req.target req.value command ∧
      (command = .crawl → txt (req.value "scheme") ∈ httpSchemes) := by
  have b := boundAttrs_bound h.names hfits
  have hplain : spec.name ∈ ["wrk".toList, "all".toList] → IsPlainHost req.target :=
    fun hname => ⟨h.plain.2.2, hdirect.noPort (h.workload ▸ hname)⟩
  have hone : spec.name ∈ ["scan".toList, "all".toList] → IsOneHost req.target :=
    fun hname => hdirect.oneHost (h.workload ▸ hname)
  have hscan : ∀ spec ∈ workloads, ∀ command ∈ [Command.scan, Command.all],
      Command.ofName? spec.name = some command → spec.name ∈ ["scan".toList, "all".toList] := by
    decide
  have hnamed : ∀ spec ∈ workloads, ∀ command ∈ [Command.wrk, Command.all],
      Command.ofName? spec.name = some command → spec.name ∈ ["wrk".toList, "all".toList] := by
    decide
  have hcrawl : ∀ spec ∈ workloads, Command.ofName? spec.name = some .crawl →
      hasInt spec "port" = true ∧
        hasStr spec "scheme" (some ["http".toList, "https".toList]) = true ∧
        "scheme".toList ∈ spec.params.map ParamSpec.name := by
    decide
  have hurl : ∀ spec ∈ workloads, "url".toList ∉ spec.params.map ParamSpec.name := by decide
  refine ⟨?_, ?_⟩
  · cases command with
    | crawl =>
        obtain ⟨hint, -, -⟩ := hcrawl spec hmem hfits.named
        obtain ⟨n, -, hlookup, -⟩ := b.readInt h hfits "port".toList 65535 hint rfl rfl
        refine ⟨not_hasBracketZone h, fun hnone => ?_⟩
        unfold ValidRequest.value at hnone
        rw [hlookup] at hnone
        cases hnone
    | wrk =>
        refine ⟨?_, hplain (hnamed spec hmem .wrk (by simp) hfits.named)⟩
        rw [value_of_notMem h (hurl spec hmem)]
        rfl
    | scan => exact hone (hscan spec hmem .scan (by simp) hfits.named)
    | all =>
        exact ⟨hplain (hnamed spec hmem .all (by simp) hfits.named),
          hone (hscan spec hmem .all (by simp) hfits.named)⟩
    | _ => exact trivial
  · rintro rfl
    obtain ⟨-, hstr, hparam⟩ := hcrawl spec hmem hfits.named
    obtain ⟨scheme, hscheme, hchoice, -⟩ := b.readStr h "scheme".toList _ hstr rfl
    rw [← given_value b h hfits hparam]
    unfold Namespace.given boundNamespace
    simp only
    rw [show destOf "scheme".toList = "scheme".toList from rfl, hscheme]
    exact hchoice _ rfl

/-! ## Starting the script -/

/-- The arguments of the remote command line are those of the local one. -/
theorem scriptArgs_remote (h : Admitted spec req) (hfits : Fits spec command) (repo : PyStr)
    (useSudo : Bool) : scriptArgs (remoteArgv repo useSudo req) useSudo =
      cliArgs spec req.target req.src req.params := by
  rw [cliArgs_eq h hfits, ← h.workload]
  unfold scriptArgs remoteArgv
  cases useSudo <;> rfl

/-- The script is started with the command line that is made for the request. -/
theorem exists_started (h : Admitted spec req) (hfits : Fits spec command) (env : Env)
    (rootOk : Bool) : ∃ argv useSudo,
      makeCmd env req.workload req.target req.src req.params rootOk = .ok (argv, useSudo) ∧
        Started env argv useSudo (cliArgs spec req.target req.src req.params) := by
  by_cases hlocal : env.clientHost = []
  · obtain ⟨argv, useSudo, hcmd, hargs⟩ := makeCmd_local h hlocal rootOk
    refine ⟨argv, useSudo, hcmd, ?_⟩
    unfold Started
    rw [if_pos hlocal, hargs]
  · have hne : remoteArgv env.clientRepo (spec.root && rootOk) req ≠ [] := by
      unfold remoteArgv
      simp
    have hcmd : makeCmd env req.workload req.target req.src req.params rootOk =
        .ok (["ssh".toList, "-o".toList, "BatchMode=yes".toList, "-o".toList,
          "ServerAliveInterval=15".toList, "-o".toList, "ServerAliveCountMax=3".toList,
          "-tt".toList, env.clientHost, remoteCommand env.clientRepo
            (remoteArgv env.clientRepo (spec.root && rootOk) req)], spec.root && rootOk) := by
      unfold makeCmd
      rw [h.workload, h.known, orRaise_some, ok_bind]
      simp only [hlocal, ne_eq, not_false_eq_true, if_true]
      rw [cliArgs_eq h hfits]
      unfold remoteCommand remoteArgv
      simp only [h.workload, List.append_assoc]
    refine ⟨_, _, hcmd, ?_⟩
    unfold Started
    rw [if_neg hlocal]
    exact ⟨_, _, rfl, tokens_remote env.clientRepo hne, (scriptArgs_remote h hfits _ _).symm⟩

end bound

/-- The machine of a client with nothing installed. -/
def bareMachine : Machine :=
  ⟨⟨fun _ => none, id, fun _ _ => []⟩, fun _ => .ok "192.0.2.2".toList, none⟩

end SrxProbe.Dashboard
