import SrxProbe.Dashboard.RequestSpec
import SrxProbe.Deploy.Preflight
import SrxProbe.Lib.Dict

/-!
# Binding an admitted command line

The catalogue of the dashboard fits the parser of the CLI: each parameter has an option
of its name that converts its values back. So the parser binds the command line of an
admitted request to a namespace that carries the request.
-/

namespace SrxProbe.Dashboard

open SrxProbe.Lib SrxProbe.Generators SrxProbe.Deploy

/-! ## The catalogue fits the parser -/

/-- The option accepts what the parameter may be. -/
def accepts (option : OptionSpec) (param : ParamSpec) : Bool :=
  option.flag = "--".toList ++ param.name && option.dest = destOf param.name &&
    match param.kind with
    | .int _ => option.type ≠ .str
    | .str _ choices => option.type = .str && (option.choices = none || option.choices = choices)

/-- The attributes that are set in front of the command. -/
def mainDests : List PyStr := "yes".toList :: mainOptions.map OptionSpec.dest

/-- An entry of the catalogue fits the subparser of its name. -/
def fits (spec : WorkloadSpec) (command : Command) : Bool :=
  Command.ofName? spec.name = some command &&
    spec.name ≠ "--yes".toList && (mainOptions.find? (·.flag = spec.name)).isNone &&
    (spec.params.all fun param => ((options command).find? fun option =>
      option.flag = "--".toList ++ param.name).any (accepts · param)) &&
    (spec.params.map ParamSpec.name).Nodup &&
    (spec.params.map fun param => destOf param.name).Nodup &&
    ((options command).map OptionSpec.dest).Nodup &&
    ((options command).map OptionSpec.dest).all (· ∉ mainDests)

theorem catalogue_fits : workloads.all (fun spec =>
    (Command.ofName? spec.name).any (fits spec)) = true := by decide

/-- No bound of an integer parameter needs more than seven digits. -/
theorem limits_le {workload name : PyStr} {limit : Int}
    (h : (limits workload).lookup name = some limit) : limit < 10000000 := by
  have hmem : ∀ entry ∈ limits workload, entry.2 < 10000000 := by
    unfold limits
    simp only [List.mem_cons, List.not_mem_nil, or_false]
    rintro entry (rfl | rfl | rfl | rfl | rfl | rfl | rfl | rfl | rfl | rfl | rfl)
    all_goals first | decide | (simp only; split <;> decide)
  obtain ⟨front, back, hsplit, -⟩ := List.lookup_eq_some_iff.mp h
  exact hmem (name, limit) (hsplit ▸ List.mem_append_right front List.mem_cons_self)

/-- What `fits` says, taken apart. -/
structure Fits (spec : WorkloadSpec) (command : Command) : Prop where
  named : Command.ofName? spec.name = some command
  notYes : spec.name ≠ "--yes".toList
  noOption : mainOptions.find? (·.flag = spec.name) = none
  option : ∀ param ∈ spec.params, ∃ option ∈ options command, accepts option param = true ∧
    (options command).find? (fun option => option.flag = "--".toList ++ param.name) = some option
  names : (spec.params.map ParamSpec.name).Nodup
  paramDests : (spec.params.map fun param => destOf param.name).Nodup
  optionDests : ((options command).map OptionSpec.dest).Nodup
  apart : ∀ d ∈ (options command).map OptionSpec.dest, d ∉ mainDests

theorem fits_of_mem {spec : WorkloadSpec} (h : spec ∈ workloads) :
    ∃ command, Fits spec command := by
  have hany := List.all_eq_true.mp catalogue_fits spec h
  obtain ⟨command, -, hfits⟩ := (Option.any_eq_true _ _).mp hany
  unfold fits at hfits
  simp only [Bool.and_eq_true, decide_eq_true_eq, List.all_eq_true, Option.isNone_iff_eq_none]
    at hfits
  obtain ⟨⟨⟨⟨⟨⟨⟨hnamed, hyes⟩, hnone⟩, hoptions⟩, hnames⟩, hparams⟩, hdests⟩, hapart⟩ := hfits
  refine ⟨command, hnamed, hyes, hnone, ?_, hnames, hparams, hdests, hapart⟩
  intro param hparam
  obtain ⟨option, hfind, haccepts⟩ := (Option.any_eq_true _ _).mp (hoptions param hparam)
  exact ⟨option, List.mem_of_find?_eq_some hfind, haccepts, hfind⟩

/-! ## Values -/

/-- An option gives a valid parameter its value back. -/
theorem convert_text {option : OptionSpec} {param : ParamSpec} {workload : PyStr}
    {value : ParamValue} (haccepts : accepts option param = true)
    (hvalid : ValidParam workload param value) :
    option.convert value.text = some value.value ∧ value.text ≠ [] := by
  unfold accepts at haccepts
  simp only [Bool.and_eq_true, decide_eq_true_eq] at haccepts
  obtain ⟨-, hkind⟩ := haccepts
  cases value with
  | int n =>
      obtain ⟨⟨default, hint⟩, limit, hlookup, hmin, hmax⟩ := hvalid
      have hlimit := limits_le hlookup
      have hlen : (Nat.toDigits 10 n.natAbs).length ≤ 7 :=
        length_toDigits_of_lt (by omega) (by decide)
      have hparse : parseInt (intText n) = some n := parseInt_intText (hlen.trans (by decide))
      have htext : intText n ≠ [] := by
        rw [show intText n = Nat.toDigits 10 n.natAbs from if_neg (by omega)]
        exact Nat.toDigits_ne_nil
      refine ⟨?_, htext⟩
      rw [hint] at hkind
      simp only [decide_eq_true_eq] at hkind
      unfold OptionSpec.convert ParamValue.text ParamValue.value
      cases htype : option.type with
      | str => exact absurd htype hkind
      | int => simp only [hparse, Option.map_some]
      | positiveInt => simp only [hparse, Option.bind_some, if_pos (show 0 < n by omega)]
  | str s =>
      obtain ⟨hne, default, choices, hstr, hchoice, -⟩ := hvalid
      refine ⟨?_, hne⟩
      rw [hstr] at hkind
      simp only [Bool.and_eq_true, Bool.or_eq_true, decide_eq_true_eq] at hkind
      obtain ⟨htype, hchoices⟩ := hkind
      unfold OptionSpec.convert ParamValue.text ParamValue.value
      simp only [htype]
      rcases hchoices with hchoices | hchoices
      · rw [hchoices]
      · rw [hchoices]
        cases choices with
        | none => rfl
        | some list => exact if_pos (hchoice list rfl)

/-! ## Tokens -/

/-- The option tokens of some parameter values. -/
def paramTokens (params : List (PyStr × ParamValue)) : List PyStr :=
  params.flatMap fun entry => ["--".toList ++ entry.1, entry.2.text]

/-- The attributes of some parameter values. -/
def paramAttrs (params : List (PyStr × ParamValue)) : List (PyStr × PyValue) :=
  params.map fun entry => (destOf entry.1, entry.2.value)

section Tokens

variable {spec : WorkloadSpec} {req : ValidRequest} {command : Command}

theorem Admitted.names (h : Admitted spec req) :
    req.params.map Prod.fst = spec.params.map ParamSpec.name := by
  have hall := h.params
  generalize spec.params = specs at hall
  generalize req.params = entries at hall
  induction hall with
  | nil => rfl
  | cons hhead _ ih => rw [List.map_cons, List.map_cons, hhead.1, ih]

theorem Admitted.valid (h : Admitted spec req) {entry : PyStr × ParamValue}
    (hentry : entry ∈ req.params) :
    ∃ param ∈ spec.params, entry.1 = param.name ∧ ValidParam spec.name param entry.2 := by
  have hall := h.params
  generalize spec.params = specs at hall ⊢
  generalize req.params = entries at hall hentry
  induction hall with
  | nil => cases hentry
  | cons hhead _ ih =>
      rcases List.mem_cons.mp hentry with rfl | hentry
      · exact ⟨_, List.mem_cons_self, hhead⟩
      · obtain ⟨param, hparam, hvalid⟩ := ih hentry
        exact ⟨param, List.mem_cons_of_mem _ hparam, hvalid⟩

theorem Admitted.entry (h : Admitted spec req) {param : ParamSpec} (hparam : param ∈ spec.params) :
    ∃ value, (param.name, value) ∈ req.params ∧ ValidParam spec.name param value := by
  have hall := h.params
  generalize spec.params = specs at hall hparam
  generalize req.params = entries at hall ⊢
  induction hall with
  | nil => cases hparam
  | @cons _ entry _ _ hhead _ ih =>
      rcases List.mem_cons.mp hparam with rfl | hparam
      · exact ⟨entry.2, hhead.1 ▸ List.mem_cons_self, hhead.2⟩
      · obtain ⟨value, hvalue, hvalid⟩ := ih hparam
        exact ⟨value, List.mem_cons_of_mem _ hvalue, hvalid⟩

/-- The command line gives every parameter, in the order of the catalogue. -/
theorem cliArgs_eq (h : Admitted spec req) (hfits : Fits spec command) :
    cliArgs spec req.target req.src req.params =
      ["--target".toList, req.target] ++ (if req.src = [] then [] else ["--src".toList, req.src]) ++
        ["--yes".toList, spec.name] ++ paramTokens req.params := by
  have hargs : ∀ param ∈ spec.params, ∀ value, (param.name, value) ∈ req.params →
      ValidParam spec.name param value →
      paramArgs req.params param = ["--".toList ++ param.name, value.text] := by
    intro param hparam value hvalue hvalid
    obtain ⟨option, -, haccepts, -⟩ := hfits.option param hparam
    unfold paramArgs
    rw [Dict.lookup_of_mem (h.names ▸ hfits.names) hvalue, Option.map_some]
    split
    · rename_i hnone
      cases hnone
    · rename_i hempty
      exact absurd (Option.some.inj hempty) (convert_text haccepts hvalid).2
    · rename_i text hsome
      rw [Option.some.inj hsome]
  -- the entries follow the parameters one by one
  have hall : ∀ specs : List ParamSpec, ∀ entries : List (PyStr × ParamValue),
      List.Forall₂ (fun param entry => entry.1 = param.name ∧
        ValidParam spec.name param entry.2) specs entries → specs ⊆ spec.params →
      entries ⊆ req.params → specs.flatMap (paramArgs req.params) = paramTokens entries := by
    intro specs entries hpairs hspecs hentries
    induction hpairs with
    | nil => rfl
    | @cons param entry specs entries hhead _ ih =>
        have hrest := ih (List.subset_of_cons_subset hspecs) (List.subset_of_cons_subset hentries)
        have hentry := hentries List.mem_cons_self
        obtain ⟨name, value⟩ := entry
        obtain ⟨rfl, hvalid⟩ := hhead
        unfold paramTokens at hrest ⊢
        rw [List.flatMap_cons, List.flatMap_cons, hrest,
          hargs param (hspecs List.mem_cons_self) value hentry hvalid]
  unfold cliArgs
  rw [hall spec.params req.params h.params (List.Subset.refl _) (List.Subset.refl _)]

theorem bindOptions_tokens {params : List (PyStr × ParamValue)} {specs : List OptionSpec}
    (h : ∀ entry ∈ params, ∃ option,
      specs.find? (fun option => option.flag = "--".toList ++ entry.1) = some option ∧
      option.dest = destOf entry.1 ∧ option.convert entry.2.text = some entry.2.value)
    (attrs : Attrs) :
    bindOptions specs attrs (paramTokens params) = .ok (setAttrs (paramAttrs params) attrs) := by
  induction params generalizing attrs with
  | nil => rfl
  | cons entry rest ih =>
      obtain ⟨option, hfind, hdest, hconvert⟩ := h entry List.mem_cons_self
      have hrest := ih fun e he => h e (List.mem_cons_of_mem entry he)
      have htokens : paramTokens (entry :: rest) =
          ("--".toList ++ entry.1) :: entry.2.text :: paramTokens rest := by
        unfold paramTokens
        rw [List.flatMap_cons]
        rfl
      rw [htokens, bindOptions, hfind, orRaise_some, ok_bind, hconvert, orRaise_some, ok_bind,
        hrest, hdest]
      rfl

theorem bindMain_option {flag token : PyStr} {option : OptionSpec} {value : PyValue}
    (hyes : flag ≠ "--yes".toList)
    (hfind : mainOptions.find? (fun option => option.flag = flag) = some option)
    (hconvert : option.convert token = some value) (attrs : Attrs) (rest : List PyStr) :
    bindMain attrs (flag :: token :: rest) =
      bindMain (update attrs option.dest (some value)) rest := by
  conv => lhs; unfold bindMain
  rw [if_neg hyes, hfind]
  simp only
  rw [hconvert, orRaise_some, ok_bind]

theorem bindMain_yes (attrs : Attrs) (rest : List PyStr) :
    bindMain attrs ("--yes".toList :: rest) =
      bindMain (update attrs "yes".toList (some (.bool true))) rest := by
  conv => lhs; unfold bindMain
  rw [if_pos rfl]

theorem bindMain_command (hfits : Fits spec command) (attrs : Attrs) (rest : List PyStr) :
    bindMain attrs (spec.name :: rest) = .ok (attrs, command, rest) := by
  unfold bindMain
  rw [if_neg hfits.notYes, hfits.noOption]
  simp only
  rw [hfits.named, orRaise_some, ok_bind]

/-- What the tokens in front of the command set. -/
def frontAttrs (target src : PyStr) : List (PyStr × PyValue) :=
  ("target".toList, .str target) :: (if src = [] then [] else [("src".toList, .str src)]) ++
    [("yes".toList, .bool true)]

theorem bindMain_front (hfits : Fits spec command) (target src : PyStr) (attrs : Attrs)
    (rest : List PyStr) :
    bindMain attrs (["--target".toList, target] ++
      (if src = [] then [] else ["--src".toList, src]) ++ ["--yes".toList, spec.name] ++ rest) =
      .ok (setAttrs (frontAttrs target src) attrs, command, rest) := by
  have htarget : mainOptions.find? (fun option => option.flag = "--target".toList) =
      some (strOption "target" .none) := by
    unfold mainOptions
    rw [List.find?_cons_of_pos (by decide)]
  have hsrc : mainOptions.find? (fun option => option.flag = "--src".toList) =
      some (strOption "src" .none) := by
    unfold mainOptions
    rw [List.find?_cons_of_neg (by decide), List.find?_cons_of_pos (by decide)]
  have htargetDest : (strOption "target" .none).dest = "target".toList := by decide
  have hsrcDest : (strOption "src" .none).dest = "src".toList := by decide
  unfold frontAttrs
  by_cases hempty : src = []
  · simp only [if_pos hempty, List.append_nil, List.cons_append, List.nil_append]
    rw [bindMain_option (by decide) htarget rfl, bindMain_yes, bindMain_command hfits,
      htargetDest]
    rfl
  · simp only [if_neg hempty, List.cons_append, List.nil_append]
    rw [bindMain_option (by decide) htarget rfl, bindMain_option (by decide) hsrc rfl,
      bindMain_yes, bindMain_command hfits, htargetDest, hsrcDest]
    rfl

/-! ## The namespace -/

/-- Everything that the command line of a request sets, the last setting counting. -/
def boundAttrs (command : Command) (req : ValidRequest) : Attrs :=
  setAttrs (paramAttrs req.params) (setAttrs (defaults (options command))
    (setAttrs (frontAttrs req.target req.src) (setAttrs startAttrs fun _ => none)))

theorem map_fst_paramAttrs (params : List (PyStr × ParamValue)) :
    (paramAttrs params).map Prod.fst = params.map fun entry => destOf entry.1 := by
  unfold paramAttrs
  rw [List.map_map]
  rfl

theorem map_fst_defaults (specs : List OptionSpec) :
    (defaults specs).map Prod.fst = specs.map OptionSpec.dest := by
  unfold defaults
  rw [List.map_map]
  rfl

/-- The request gives the parameters of the workload, in their order. -/
def Names (spec : WorkloadSpec) (req : ValidRequest) : Prop :=
  req.params.map Prod.fst = spec.params.map ParamSpec.name

theorem Names.dests (h : Names spec req) :
    (paramAttrs req.params).map Prod.fst = spec.params.map fun param => destOf param.name := by
  have hnames := congrArg (List.map destOf) h
  rw [List.map_map, List.map_map] at hnames
  rw [map_fst_paramAttrs]
  exact hnames

/-- Parameters are among the options of their command. -/
theorem Fits.dest_mem (hfits : Fits spec command) {d : PyStr}
    (hd : d ∈ spec.params.map fun param => destOf param.name) :
    d ∈ (options command).map OptionSpec.dest := by
  obtain ⟨param, hparam, rfl⟩ := List.mem_map.mp hd
  obtain ⟨option, hoption, haccepts, -⟩ := hfits.option param hparam
  unfold accepts at haccepts
  simp only [Bool.and_eq_true, decide_eq_true_eq] at haccepts
  exact List.mem_map.mpr ⟨option, hoption, haccepts.1.2⟩

/-- What the attributes of an admitted request are. -/
structure Bound (spec : WorkloadSpec) (req : ValidRequest) (command : Command) (attrs : Attrs) :
    Prop where
  target : attrs "target".toList = some (.str req.target)
  src : attrs "src".toList = some (if req.src = [] then .none else .str req.src)
  param : ∀ entry ∈ req.params, attrs (destOf entry.1) = some entry.2.value
  default : ∀ option ∈ options command,
    option.dest ∉ (spec.params.map fun param => destOf param.name) →
    attrs option.dest = some option.default
  limit : ∀ entry ∈ (WorkloadLimits.fields.zip defaultLimits.values),
    attrs ("limit_".toList ++ entry.1) = some (.int entry.2)
  unset : ∀ d, d ∉ mainDests → d ∉ (options command).map OptionSpec.dest → attrs d = none

theorem mainDests_nodup : mainDests.Nodup := by decide

theorem map_fst_frontAttrs (target src : PyStr) : (frontAttrs target src).map Prod.fst =
    if src = [] then ["target".toList, "yes".toList]
    else ["target".toList, "src".toList, "yes".toList] := by
  unfold frontAttrs
  split <;> rfl

theorem map_fst_startAttrs : startAttrs.map Prod.fst = mainDests := by
  unfold startAttrs mainDests
  rw [List.map_cons, map_fst_defaults]

theorem start_default {option : OptionSpec} (h : option ∈ mainOptions) :
    setAttrs startAttrs (fun _ => none) option.dest = some option.default := by
  refine setAttrs_of_mem ?_ (List.mem_cons_of_mem _ (List.mem_map.mpr ⟨option, h, rfl⟩))
  rw [map_fst_startAttrs]
  exact mainDests_nodup

/-- A setting from in front of the command. -/
theorem boundAttrs_main (h : Names spec req) (hfits : Fits spec command) {d : PyStr}
    (hd : d ∈ mainDests) : boundAttrs command req d =
      setAttrs (frontAttrs req.target req.src) (setAttrs startAttrs fun _ => none) d := by
  have hoption : d ∉ (options command).map OptionSpec.dest := fun hmem => hfits.apart d hmem hd
  unfold boundAttrs
  rw [setAttrs_of_notMem, setAttrs_of_notMem]
  · rw [map_fst_defaults]
    exact hoption
  · rw [h.dests]
    exact fun hmem => hoption (hfits.dest_mem hmem)

theorem boundAttrs_target (h : Names spec req) (hfits : Fits spec command) :
    boundAttrs command req "target".toList = some (.str req.target) := by
  rw [boundAttrs_main h hfits (by decide)]
  refine setAttrs_of_mem ?_ List.mem_cons_self
  rw [map_fst_frontAttrs]
  split <;> decide

theorem boundAttrs_src (h : Names spec req) (hfits : Fits spec command) :
    boundAttrs command req "src".toList =
      some (if req.src = [] then .none else .str req.src) := by
  rw [boundAttrs_main h hfits (by decide)]
  by_cases hempty : req.src = []
  · have hsrc : (strOption "src" .none).dest = "src".toList := by decide
    rw [if_pos hempty, setAttrs_of_notMem, ← hsrc]
    · exact start_default (List.mem_cons_of_mem _ List.mem_cons_self)
    · rw [map_fst_frontAttrs, if_pos hempty]
      decide
  · rw [if_neg hempty]
    refine setAttrs_of_mem ?_ ?_
    · rw [map_fst_frontAttrs, if_neg hempty]
      decide
    · unfold frontAttrs
      rw [if_neg hempty]
      exact List.mem_cons_of_mem _ List.mem_cons_self

theorem boundAttrs_limit (h : Names spec req) (hfits : Fits spec command)
    {entry : PyStr × Int} (hentry : entry ∈ WorkloadLimits.fields.zip defaultLimits.values) :
    boundAttrs command req ("limit_".toList ++ entry.1) = some (.int entry.2) := by
  have hapart : ∀ entry ∈ WorkloadLimits.fields.zip defaultLimits.values,
      "limit_".toList ++ entry.1 ∉ ["target".toList, "src".toList, "yes".toList] := by
    decide
  have hoption : limitOption entry ∈ mainOptions :=
    List.mem_cons_of_mem _ (List.mem_cons_of_mem _ (List.mem_map_of_mem hentry))
  have hmain : (limitOption entry).dest ∈ mainDests :=
    List.mem_cons_of_mem _ (List.mem_map_of_mem hoption)
  show boundAttrs command req (limitOption entry).dest = _
  rw [boundAttrs_main h hfits hmain, setAttrs_of_notMem]
  · exact start_default hoption
  · have hno := hapart entry hentry
    rw [map_fst_frontAttrs]
    split
    · intro hmem
      apply hno
      simp only [List.mem_cons, List.not_mem_nil, or_false] at hmem ⊢
      exact hmem.imp_right .inr
    · exact hno

theorem boundAttrs_unset (h : Names spec req) (hfits : Fits spec command) {d : PyStr}
    (hmain : d ∉ mainDests) (hoption : d ∉ (options command).map OptionSpec.dest) :
    boundAttrs command req d = none := by
  have hfront : ∀ d ∈ ["target".toList, "src".toList, "yes".toList], d ∈ mainDests := by
    decide
  unfold boundAttrs
  rw [setAttrs_of_notMem, setAttrs_of_notMem, setAttrs_of_notMem, setAttrs_of_notMem]
  · show d ∉ startAttrs.map Prod.fst
    rw [map_fst_startAttrs]
    exact hmain
  · rw [map_fst_frontAttrs]
    intro hmem
    apply hmain
    apply hfront
    split at hmem
    · simp only [List.mem_cons, List.not_mem_nil, or_false] at hmem ⊢
      exact hmem.imp_right .inr
    · exact hmem
  · rw [map_fst_defaults]
    exact hoption
  · rw [h.dests]
    exact fun hmem => hoption (hfits.dest_mem hmem)

theorem boundAttrs_bound (h : Names spec req) (hfits : Fits spec command) :
    Bound spec req command (boundAttrs command req) where
  target := boundAttrs_target h hfits
  src := boundAttrs_src h hfits
  param := by
    intro entry hentry
    unfold boundAttrs
    refine setAttrs_of_mem ?_ (List.mem_map.mpr ⟨entry, hentry, rfl⟩)
    rw [h.dests]
    exact hfits.paramDests
  default := by
    intro option hoption hno
    unfold boundAttrs
    rw [setAttrs_of_notMem (h.dests ▸ hno)]
    refine setAttrs_of_mem ?_ (List.mem_map.mpr ⟨option, hoption, rfl⟩)
    rw [map_fst_defaults]
    exact hfits.optionDests
  limit := fun entry => boundAttrs_limit h hfits
  unset := fun d => boundAttrs_unset h hfits

/-- **The parser binds the command line of an admitted request.** -/
theorem readArgs_cliArgs (h : Admitted spec req) (hfits : Fits spec command) :
    readArgs (cliArgs spec req.target req.src req.params) =
      .ok (command, boundAttrs command req) := by
  have hoptions : ∀ entry ∈ req.params, ∃ option,
      (options command).find? (fun option => option.flag = "--".toList ++ entry.1) = some option ∧
      option.dest = destOf entry.1 ∧ option.convert entry.2.text = some entry.2.value := by
    intro entry hentry
    obtain ⟨param, hparam, hname, hvalid⟩ := h.valid hentry
    obtain ⟨option, -, haccepts, hfind⟩ := hfits.option param hparam
    have hconvert := (convert_text haccepts hvalid).1
    unfold accepts at haccepts
    simp only [Bool.and_eq_true, decide_eq_true_eq] at haccepts
    exact ⟨option, hname ▸ hfind, hname ▸ haccepts.1.2, hconvert⟩
  have htarget : setAttrs (frontAttrs req.target req.src) (setAttrs startAttrs fun _ => none)
      "target".toList = some (.str req.target) := by
    rw [← boundAttrs_main h.names hfits (by decide)]
    exact boundAttrs_target h.names hfits
  unfold readArgs
  rw [cliArgs_eq h hfits, bindMain_front hfits, ok_bind]
  simp only
  rw [htarget, raiseIf_of_not (by simp [PyValue.str?]), ok_bind, bindOptions_tokens hoptions,
    ok_bind]
  rfl

/-- The preflight is made on the attributes of the request. -/
theorem parseArgs_cliArgs (h : Admitted spec req) (hfits : Fits spec command) :
    parseArgs (cliArgs spec req.target req.src req.params) =
      reported (preflight command (boundAttrs command req)) := by
  unfold parseArgs parseWith
  rw [readArgs_cliArgs h hfits, ok_bind]

end Tokens

end SrxProbe.Dashboard
