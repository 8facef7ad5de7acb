import SrxProbe.Dashboard.Contract

/-!
# The bounds of the dashboard and of the CLI

The numbers of a request are checked twice, against two tables: by the dashboard, and
by the preflight of the CLI under its default ceilings. Both checks come down to the
same bounds for every workload, but for the port of an ICMP flood.
-/

namespace SrxProbe.Dashboard

open SrxProbe.Lib SrxProbe.Generators SrxProbe.Deploy

/-! ## Assignments -/

/-- Numbers and texts for the parameters of a workload, by name. -/
structure Assignment where
  nums : PyStr → Int
  texts : PyStr → PyStr

namespace Assignment

/-- The value of a parameter. -/
def value (given : Assignment) (param : ParamSpec) : ParamValue :=
  match param.kind with
  | .int _ => .int (given.nums param.name)
  | .str _ _ => .str (given.texts param.name)

def params (given : Assignment) (spec : WorkloadSpec) : List (PyStr × ParamValue) :=
  spec.params.map fun param => (param.name, given.value param)

/-- The texts pass the checks of the dashboard as they are. -/
def Texts (given : Assignment) (spec : WorkloadSpec) : Prop :=
  ∀ param ∈ spec.params, ∀ default choices, param.kind = .str default choices →
    cleanText spec.name param.name choices (.str (given.texts param.name)) =
      .ok (given.texts param.name)

/-- The same assignment with another port. -/
def withPort (given : Assignment) (port : Int) : Assignment :=
  { given with nums := update given.nums "port".toList port }

end Assignment

/-- The parameters as a request body gives them. -/
def Assignment.values (given : Assignment) (spec : WorkloadSpec) : List (PyStr × PyValue) :=
  (given.params spec).map fun entry => (entry.1, entry.2.value)

/-- The fields of a request for a workload, with confirmation. -/
def fieldsOf (spec : WorkloadSpec) (target : PyStr) (given : Assignment) :
    List (PyStr × PyValue) :=
  [("workload".toList, .str spec.name), ("target".toList, .str target),
    ("params".toList, .dict (given.values spec)), ("confirm_aggressive".toList, .bool true)]

/-- The request it stands for. -/
def requestOf (spec : WorkloadSpec) (target : PyStr) (given : Assignment) : ValidRequest :=
  ⟨spec.name, target, [], given.params spec, none⟩

/-- `validate_request` accepts the assignment. -/
def Admits (spec : WorkloadSpec) (target : PyStr) (given : Assignment) : Prop :=
  ∃ req, validateRequest (.dict (fieldsOf spec target given)) = .ok req

/-- The preflight of the CLI accepts the namespace with these values, under the default
ceilings. -/
def Passes (spec : WorkloadSpec) (target : PyStr) (given : Assignment) : Prop :=
  ∃ command, Command.ofName? spec.name = some command ∧
    validateArgs (boundNamespace command (boundAttrs command (requestOf spec target given)))
      command = .ok () ∧
    (command = .all → ∃ workloads, buildAllWorkloads
      (boundNamespace command (boundAttrs command (requestOf spec target given))) = .ok workloads)

/-- A flood of ICMP packets to port 0. -/
def IsPortlessFlood (spec : WorkloadSpec) (given : Assignment) : Prop :=
  spec.name = "flood".toList ∧ given.texts "type".toList = "icmp".toList ∧
    given.nums "port".toList = 0

/-! ## The bounds of the dashboard -/

/-- The number of a parameter is within the table of the dashboard. -/
def Within (workload : PyStr) (given : Assignment) (param : ParamSpec) : Prop :=
  ∀ default, param.kind = .int default →
    ∃ limit, (limits workload).lookup param.name = some limit ∧
      1 ≤ given.nums param.name ∧ given.nums param.name ≤ limit

def InRange (spec : WorkloadSpec) (given : Assignment) : Prop :=
  ∀ param ∈ spec.params, Within spec.name given param

section dashboard

variable {spec : WorkloadSpec} {target : PyStr} {given : Assignment} {ip : Nat}

theorem names_params (given : Assignment) (spec : WorkloadSpec) :
    (given.params spec).map Prod.fst = spec.params.map ParamSpec.name := by
  rw [Assignment.params, List.map_map]
  rfl

theorem cleanInt_int_iff {workload name : PyStr} {n m : Int} :
    cleanInt workload name (.int n) = .ok m ↔ m = n ∧
      ∃ limit, (limits workload).lookup name = some limit ∧ 1 ≤ n ∧ n ≤ limit := by
  rw [cleanInt_ok_iff]
  constructor
  · rintro ⟨hread, hrange⟩
    cases hread
    exact ⟨rfl, hrange⟩
  · rintro ⟨rfl, hrange⟩
    exact ⟨rfl, hrange⟩

/-- A parameter is returned as it is given, a number when it is in range. -/
theorem cleanParam_ok_iff (htexts : given.Texts spec)
    (hnodup : (spec.params.map ParamSpec.name).Nodup) {param : ParamSpec}
    (hparam : param ∈ spec.params) {entry : PyStr × ParamValue} :
    cleanParam spec.name (given.values spec) param = .ok entry ↔
      entry = (param.name, given.value param) ∧ Within spec.name given param := by
  have hlookup : (given.values spec).lookup param.name =
      some (given.value param).value := by
    apply Dict.lookup_of_mem
    · rw [Assignment.values, List.map_map]
      exact names_params given spec ▸ hnodup
    · exact List.mem_map.mpr ⟨_, List.mem_map.mpr ⟨param, hparam, rfl⟩, rfl⟩
  unfold cleanParam Within
  simp only [hlookup, Option.getD_some]
  cases hkind : param.kind with
  | int default =>
      have hvalue : given.value param = .int (given.nums param.name) := by
        unfold Assignment.value
        rw [hkind]
      rw [hvalue]
      show (cleanInt spec.name param.name (.int (given.nums param.name)) >>= fun n =>
        .ok (param.name, ParamValue.int n)) = _ ↔ _
      rw [bind_ok_iff]
      constructor
      · rintro ⟨n, hn, h⟩
        obtain ⟨rfl, hrange⟩ := cleanInt_int_iff.mp hn
        cases h
        exact ⟨rfl, fun _ _ => hrange⟩
      · rintro ⟨rfl, hrange⟩
        exact ⟨_, cleanInt_int_iff.mpr ⟨rfl, hrange default rfl⟩, rfl⟩
  | str default choices =>
      have hvalue : given.value param = .str (given.texts param.name) := by
        unfold Assignment.value
        rw [hkind]
      have hclean := htexts param hparam default choices hkind
      have hempty : (PyValue.str (given.texts param.name)).isEmptyStr = false := by
        cases htext : given.texts param.name with
        | nil => exact absurd htext (cleanText_ok_iff.mp hclean).2.nonempty
        | cons c rest => rfl
      rw [hvalue]
      show ((cleanText spec.name param.name choices
        (if (PyValue.str (given.texts param.name)).isEmptyStr then _ else _)) >>= _) = _ ↔ _
      rw [hempty, if_neg Bool.false_ne_true]
      show (cleanText spec.name param.name choices (.str (given.texts param.name)) >>= _) = _ ↔ _
      rw [hclean, ok_bind]
      constructor
      · intro h
        cases h
        exact ⟨rfl, fun _ h => by cases h⟩
      · rintro ⟨rfl, -⟩
        rfl

/-- A loop whose turns each return one value, or none. -/
theorem mapM_map_iff {ε α β : Type} {f : α → Except ε β} {g : α → β} {ok : α → Prop} {l : List α}
    (h : ∀ a ∈ l, ∀ b, f a = .ok b ↔ b = g a ∧ ok a) {out : List β} :
    l.mapM f = .ok out ↔ out = l.map g ∧ ∀ a ∈ l, ok a := by
  rw [mapM_ok_iff]
  constructor
  · intro hout
    have hturns : List.Forall₂ (fun a b => ok a ∧ g a = b) l out := by
      refine List.forall₂_iff_zip.mpr ⟨hout.length_eq, fun {a b} hzip => ?_⟩
      obtain ⟨heq, ha⟩ := (h a (List.of_mem_zip hzip).1 b).mp (List.forall₂_zip hout hzip)
      exact ⟨ha, heq.symm⟩
    obtain ⟨hok, heq⟩ := (List.forall₂_and_left l out).mp hturns
    rw [← List.forall₂_map_left_iff (R := Eq), List.forall₂_eq_eq_eq] at heq
    exact ⟨heq.symm, hok⟩
  · rintro ⟨rfl, hok⟩
    rw [List.forall₂_map_right_iff, List.forall₂_same]
    exact fun a ha => (h a ha _).mpr ⟨rfl, hok a ha⟩

/-- The loop over the parameters returns them as they are given, when the numbers are in
range. -/
theorem cleanParams_ok_iff (htexts : given.Texts spec)
    (hnodup : (spec.params.map ParamSpec.name).Nodup) {clean : List (PyStr × ParamValue)} :
    spec.params.mapM (cleanParam spec.name
        (given.values spec)) = .ok clean ↔
      clean = given.params spec ∧ InRange spec given :=
  mapM_map_iff fun _ hparam _ => cleanParam_ok_iff htexts hnodup hparam

/-- A dotted IPv4 address is a target as it is. -/
theorem text_target (htarget : IpAddress.parseV4 target = some ip) :
    text (.str target) "target".toList 253 = .ok target ∧ isTarget target = true := by
  have hchars : ∀ c ∈ target, c = '.' ∨ IpAddress.isAsciiDigit c = true :=
    fun c hc => IpAddress.mem_of_parseV4 htarget hc
  obtain ⟨hlen, hhead⟩ := IpAddress.shape_of_parseV4 htarget
  have hcode : ∀ c ∈ target, 0x2E ≤ c.toNat ∧ c.toNat ≤ 0x39 := by
    intro c hc
    rcases hchars c hc with rfl | hdigit
    · decide
    · obtain ⟨hlo, hhi⟩ := inRange_iff.mp hdigit
      exact ⟨le_trans (by decide) hlo, hhi⟩
  constructor
  · have hcontrol : ¬ (253 < target.length ∨ target.any isControl = true) := by
      rintro (hlong | hany)
      · omega
      · obtain ⟨c, hc, hcontrol⟩ := List.any_eq_true.mp hany
        have := hcode c hc
        simp only [isControl, Bool.or_eq_true, decide_eq_true_eq] at hcontrol
        omega
    have hstrip : strip target = target := by
      apply trim_of_solid
      intro c hc
      have := hcode c hc
      rw [← Bool.not_eq_true]
      intro hspace
      simp only [isSpace, Bool.or_eq_true, Bool.and_eq_true, decide_eq_true_eq] at hspace
      omega
    show (.ok target >>= fun s => raiseIf _ _ >>= fun _ => .ok (strip s)) = _
    rw [ok_bind, raiseIf_of_not hcontrol, ok_bind, hstrip]
  · have halnum : ∀ c, IpAddress.isAsciiDigit c = true → isAlnum c = true :=
      fun c hc => Bool.or_eq_true_iff.mpr (.inr hc)
    unfold isTarget
    rw [Bool.and_eq_true]
    constructor
    · cases hhd : target.head? with
      | none =>
          rw [hhd] at hhead
          cases hhead
      | some c =>
          rw [hhd] at hhead
          exact halnum c hhead
    · rw [List.all_eq_true]
      intro c hc
      unfold isTargetChar
      rcases hchars c (List.mem_of_mem_tail hc) with rfl | hdigit
      · decide
      · simp [halnum c hdigit]

/-- The characters of a dotted IPv4 address. -/
theorem target_plain (htarget : IpAddress.parseV4 target = some ip) :
    (∀ c ∈ target, isPlain c = true) ∧ target.head?.any isAlnum = true ∧ ':' ∉ target := by
  have hchars : ∀ c ∈ target, c = '.' ∨ IpAddress.isAsciiDigit c = true :=
    fun c hc => IpAddress.mem_of_parseV4 htarget hc
  refine ⟨?_, (Bool.and_eq_true_iff.mp (text_target htarget).2).1, ?_⟩
  · intro c hc
    rcases hchars c hc with rfl | hdigit
    · decide
    · exact isPlain_of_isAsciiDigit hdigit
  · intro hcolon
    exact absurd (hchars ':' hcolon) (by decide)

theorem catalogue_known : workloads.all (fun spec => workload? spec.name = some spec) = true := by
  decide

/-- The dashboard accepts an assignment whose numbers are in its table and fit together. -/
theorem admits_iff (hmem : spec ∈ workloads) (htexts : given.Texts spec)
    (htarget : IpAddress.parseV4 target = some ip) :
    Admits spec target given ↔
      InRange spec given ∧ checkRelated spec.name (given.params spec) = .ok () := by
  obtain ⟨command, hfits⟩ := fits_of_mem hmem
  have hknown := of_decide_eq_true (List.all_eq_true.mp catalogue_known spec hmem)
  obtain ⟨htext, htargetOk⟩ := text_target htarget
  have hfields : ¬ ∃ entry ∈ fieldsOf spec target given, entry.1 ∉ bodyFields := by
    simp [fieldsOf, bodyFields]
  have hparams : ¬ ∃ entry ∈ given.values spec, entry.1 ∉ spec.params.map ParamSpec.name := by
    rintro ⟨entry, hentry, hno⟩
    apply hno
    rw [← names_params given spec]
    obtain ⟨entry', hentry', rfl⟩ := List.mem_map.mp hentry
    exact List.mem_map.mpr ⟨entry', hentry', rfl⟩
  -- what `body.get` finds of each field
  have hworkload : (((fieldsOf spec target given).lookup "workload".toList).bind
      PyValue.str?).bind workload? = some spec := hknown
  have htargetField : ((fieldsOf spec target given).lookup "target".toList).getD .none =
      .str target := rfl
  have hsrc : text (((fieldsOf spec target given).lookup "src".toList).getD (.str []))
      "src".toList 45 = .ok [] := rfl
  have hconfirmed : confirmedOf (fieldsOf spec target given) = .ok true := rfl
  have hid : requestIdOf (fieldsOf spec target given) = .ok none := rfl
  have hparamsField : ((fieldsOf spec target given).lookup "params".toList).getD (.dict []) =
      .dict (given.values spec) := rfl
  have hbody : validateRequest (.dict (fieldsOf spec target given)) =
      (spec.params.mapM (cleanParam spec.name (given.values spec)) >>= fun clean =>
        checkRelated spec.name clean >>= fun _ => .ok ⟨spec.name, target, [], clean, none⟩) := by
    unfold validateRequest
    simp only [entriesOf, ok_bind]
    rw [raiseIf_of_not hfields, ok_bind, hworkload, orRaise_some, ok_bind, htargetField, htext,
      ok_bind, raiseIf_of_not (by simp [htargetOk]), ok_bind, hsrc, ok_bind,
      raiseIf_of_not (by simp), ok_bind, hconfirmed, ok_bind, raiseIf_of_not (by simp), ok_bind,
      hid, ok_bind, hparamsField]
    simp only [ok_bind]
    rw [raiseIf_of_not hparams, ok_bind]
  rw [Admits, hbody]
  constructor
  · rintro ⟨req, h⟩
    obtain ⟨clean, hclean, h⟩ := bind_ok_iff.mp h
    obtain ⟨u, hrelated, -⟩ := bind_ok_iff.mp h
    obtain ⟨rfl, hrange⟩ := (cleanParams_ok_iff htexts hfits.names).mp hclean
    exact ⟨hrange, hrelated⟩
  · rintro ⟨hrange, hrelated⟩
    rw [(cleanParams_ok_iff htexts hfits.names).mpr ⟨rfl, hrange⟩, ok_bind, hrelated]
    exact ⟨_, rfl⟩

end dashboard

/-! ## The bounds of the CLI -/

/-! ### Parameters in the table -/

section within

variable {workload : PyStr} {given : Assignment} {name default : String}

theorem within_nil : (∀ param ∈ [], Within workload given param) ↔ True :=
  iff_true_intro (List.forall_mem_nil _)

theorem within_int (workload : PyStr) (name : String) {d : Int} (limit : Int)
    (h : (limits workload).lookup name.toList = some limit) :
    Within workload given (intParam name d) ↔
      1 ≤ given.nums name.toList ∧ given.nums name.toList ≤ limit := by
  constructor
  · intro hwithin
    obtain ⟨limit', hlimit, hrange⟩ := hwithin d rfl
    obtain rfl := Option.some.inj (h.symm.trans hlimit)
    exact hrange
  · exact fun hrange _ _ => ⟨limit, h, hrange⟩

theorem within_str : Within workload given (strParam name default) := by
  intro d h
  cases h

theorem within_choice {choices : List String} :
    Within workload given (choiceParam name default choices) := by
  intro d h
  cases h

end within

section cli

variable {spec : WorkloadSpec} {target : PyStr} {given : Assignment} {command : Command} {ip : Nat}

/-- The attributes that the namespace of an assignment has. -/
theorem bound_requestOf (hfits : Fits spec command) (target : PyStr) (given : Assignment) :
    Bound spec (requestOf spec target given) command
      (boundAttrs command (requestOf spec target given)) :=
  boundAttrs_bound (names_params given spec) hfits

/-- A parameter is bound to the value that is given for it. -/
theorem bound_param (hfits : Fits spec command) {param : ParamSpec} (hparam : param ∈ spec.params)
    {dest : String} (hdest : destOf param.name = dest.toList) :
    (boundNamespace command (boundAttrs command (requestOf spec target given))).attrs dest.toList =
      some (given.value param).value := by
  rw [← hdest]
  exact (bound_requestOf hfits target given).param (param.name, given.value param)
    (List.mem_map.mpr ⟨param, hparam, rfl⟩)

/-- The parameters of a workload by their kind. -/
theorem mem_of_hasInt {name : String} (h : hasInt spec name = true) :
    ∃ d, intParam name d ∈ spec.params := by
  obtain ⟨⟨name', kind⟩, hmem, hparam⟩ := List.any_eq_true.mp h
  rw [Bool.and_eq_true, decide_eq_true_eq] at hparam
  obtain ⟨rfl, hkind⟩ := hparam
  cases kind with
  | int d => exact ⟨d, hmem⟩
  | str d choices => cases hkind

/-- A number is bound as it is given. -/
theorem bound_int (hfits : Fits spec command) {name : String} (hparam : hasInt spec name = true)
    {dest : String} (hdest : destOf name.toList = dest.toList) :
    (boundNamespace command (boundAttrs command (requestOf spec target given))).attrs dest.toList =
      some (.int (given.nums name.toList)) := by
  obtain ⟨d, hmem⟩ := mem_of_hasInt hparam
  exact bound_param hfits hmem hdest

theorem passes_iff_validateArgs (hfits : Fits spec command) (hall : command ≠ .all) :
    Passes spec target given ↔
      validateArgs (boundNamespace command (boundAttrs command (requestOf spec target given)))
        command = .ok () := by
  constructor
  · rintro ⟨command', hnamed, hvalid, -⟩
    obtain rfl := Option.some.inj (hnamed.symm.trans hfits.named)
    exact hvalid
  · exact fun hvalid => ⟨command, hfits.named, hvalid, fun heq => absurd heq hall⟩

/-- A workload that is checked for its port alone. -/
theorem passes_plain (hfits : Fits spec command) (hplain : command ∈ plainCommands)
    (hparam : hasInt spec "port" = true) :
    Passes spec target given ↔
      1 ≤ given.nums "port".toList ∧ given.nums "port".toList ≤ 65535 := by
  have hne : command ≠ .flood ∧ command ≠ .all := by
    constructor
    · rintro rfl
      exact absurd hplain (by decide)
    · rintro rfl
      exact absurd hplain (by decide)
  rw [passes_iff_validateArgs hfits hne.2, validateArgs_plain hplain,
    validatePort_int (bound_int hfits hparam rfl) hne.1]

/-- A workload whose one parameter is its port. -/
theorem inRange_iff_passes_port {d : Int} (hfits : Fits spec command)
    (hplain : command ∈ plainCommands) (hparams : spec.params = [intParam "port" d])
    (hlimit : (limits spec.name).lookup "port".toList = some 65535) :
    InRange spec given ↔ Passes spec target given := by
  have hparam : hasInt spec "port" = true := by
    rw [hasInt, hparams]
    rfl
  rw [passes_plain hfits hplain hparam, InRange, hparams]
  simp only [List.forall_mem_cons, within_nil, and_true, within_int _ "port" 65535 hlimit]

theorem passes_scan (hfits : Fits spec .scan)
    (hparam : hasInt spec "max-ports" = true) :
    Passes spec target given ↔
      1 ≤ given.nums "max-ports".toList ∧ given.nums "max-ports".toList ≤ 4096 := by
  rw [passes_iff_validateArgs hfits (by decide), validateArgs_scan
    ((bound_requestOf hfits target given).port_unset (by decide))
    (bound_int hfits hparam rfl)]
  rfl

theorem passes_ttl (hfits : Fits spec .ttl) (hport : hasInt spec "port" = true)
    (httl : hasInt spec "ttl" = true) :
    Passes spec target given ↔
      (1 ≤ given.nums "port".toList ∧ given.nums "port".toList ≤ 65535) ∧
        1 ≤ given.nums "ttl".toList ∧ given.nums "ttl".toList ≤ 255 := by
  rw [passes_iff_validateArgs hfits (by decide),
    validateArgs_ttl (bound_int hfits hport rfl) (bound_int hfits httl rfl)]

theorem passes_frag (hfits : Fits spec .frag)
    (hport : hasInt spec "port" = true) (hcount : hasInt spec "count" = true) :
    Passes spec target given ↔
      (1 ≤ given.nums "port".toList ∧ given.nums "port".toList ≤ 65535) ∧
        1 ≤ given.nums "count".toList ∧ given.nums "count".toList ≤ 64 := by
  rw [passes_iff_validateArgs hfits (by decide),
    validateArgs_frag (bound_int hfits hport rfl) (bound_int hfits hcount rfl)]
  rfl

theorem passes_iperf (hfits : Fits spec .iperf)
    (hport : hasInt spec "port" = true) (hduration : hasInt spec "duration" = true)
    (hparallel : hasInt spec "parallel" = true) :
    Passes spec target given ↔
      (1 ≤ given.nums "port".toList ∧ given.nums "port".toList ≤ 65535) ∧
        (1 ≤ given.nums "duration".toList ∧ given.nums "duration".toList ≤ 300) ∧
        1 ≤ given.nums "parallel".toList ∧ given.nums "parallel".toList ≤ 32 := by
  rw [passes_iff_validateArgs hfits (by decide),
    validateArgs_iperf (bound_int hfits hport rfl) (bound_int hfits hduration rfl)
      (bound_int hfits hparallel rfl)]
  rfl

/-- A text passes the checks of its parameter. -/
theorem validText (hfits : Fits spec command) (htexts : given.Texts spec) {param : ParamSpec}
    (hparam : param ∈ spec.params) {default : PyStr} {choices : Option (List PyStr)}
    (hkind : param.kind = .str default choices) :
    ValidParam spec.name param (.str (given.texts param.name)) := by
  have hvalue : given.value param = .str (given.texts param.name) := by
    unfold Assignment.value
    rw [hkind]
  have hwithin : Within spec.name given param := fun d h => by
    rw [hkind] at h
    cases h
  have hclean := (cleanParam_ok_iff htexts hfits.names hparam).mpr ⟨rfl, hwithin⟩
  exact hvalue ▸ (cleanParam_ok hclean).2

theorem passes_flood (target : PyStr) (hfits : Fits spec .flood) (htexts : given.Texts spec)
    (htype : choiceParam "type" "syn" ["syn", "icmp", "udp"] ∈ spec.params)
    (hport : hasInt spec "port" = true) (hcount : hasInt spec "count" = true)
    (hrate : hasInt spec "rate" = true) :
    Passes spec target given ↔
      ((if given.texts "type".toList = "icmp".toList then 0 else 1) ≤ given.nums "port".toList ∧
          given.nums "port".toList ≤ 65535) ∧
        (1 ≤ given.nums "count".toList ∧ given.nums "count".toList ≤ 10000) ∧
        (1 ≤ given.nums "rate".toList ∧ given.nums "rate".toList ≤ 1000) ∧
        given.nums "count".toList * WorkloadLimits.intervalUs (given.nums "rate".toList) ≤
          300000000 := by
  obtain ⟨-, default, choices, hkind, hchoice, -⟩ := validText hfits htexts htype rfl
  obtain ⟨rfl, rfl⟩ := ParamKind.str.inj hkind
  have hknown := hchoice _ rfl
  rw [passes_iff_validateArgs hfits (by decide), validateArgs_flood (bound_param hfits htype rfl)
    hknown (bound_int hfits hport rfl) (bound_int hfits hcount rfl)
    (bound_int hfits hrate rfl)]
  rfl

/-- A load of a dotted IPv4 address has the default port. -/
theorem httpPort_v4 (htarget : IpAddress.parseV4 target = some ip) :
    ∃ n, httpPort ("http://".toList ++ target ++ "/".toList) = .ok n := by
  obtain ⟨hplain, hhead, hcolon⟩ := target_plain htarget
  rw [httpPort_ok_iff hplain hhead, after_of_notMem hcolon]
  exact .inl rfl

theorem passes_wrk (hfits : Fits spec .wrk)
    (htarget : IpAddress.parseV4 target = some ip)
    (hconnections : hasInt spec "connections" = true)
    (hthreads : hasInt spec "threads" = true)
    (hduration : hasInt spec "duration" = true)
    (hurl : "url".toList ∉ spec.params.map fun param => destOf param.name) :
    Passes spec target given ↔
      (1 ≤ given.nums "connections".toList ∧ given.nums "connections".toList ≤ 10000) ∧
        (1 ≤ given.nums "threads".toList ∧
          given.nums "threads".toList ≤ min 64 (given.nums "connections".toList)) ∧
        1 ≤ given.nums "duration".toList ∧ given.nums "duration".toList ≤ 300 := by
  have b := bound_requestOf hfits target given
  have hnone := b.default (strOption "url" .none) List.mem_cons_self hurl
  rw [passes_iff_validateArgs hfits (by decide), validateArgs_wrk (b.port_unset (by decide))
    (bound_int hfits hconnections rfl) (bound_int hfits hthreads rfl)
    (bound_int hfits hduration rfl) hnone b.target]
  constructor
  · rintro ⟨hconnections, hthreads, hduration, -⟩
    exact ⟨hconnections, hthreads, hduration⟩
  · rintro ⟨hconnections, hthreads, hduration⟩
    exact ⟨hconnections, hthreads, hduration, httpPort_v4 htarget⟩

theorem passes_all (hfits : Fits spec .all)
    (htarget : IpAddress.parseV4 target = some ip)
    (hduration : hasInt spec "duration" = true) :
    Passes spec target given ↔
      1 ≤ given.nums "duration".toList ∧ given.nums "duration".toList ≤ 300 := by
  have b := bound_requestOf hfits target given
  have hport := b.port_unset (by decide)
  have hattr : (boundNamespace .all (boundAttrs .all (requestOf spec target given))).attrs
      "duration".toList = some (.int (given.nums "duration".toList)) :=
    bound_int hfits hduration rfl
  have hvalid := validateArgs_all hport hattr
  constructor
  · rintro ⟨command, hnamed, hpass, -⟩
    obtain rfl := Option.some.inj (hnamed.symm.trans hfits.named)
    exact hvalid.mp hpass
  · rintro ⟨hmin, hmax⟩
    refine ⟨.all, hfits.named, hvalid.mpr ⟨hmin, hmax⟩, fun _ => ?_⟩
    exact (buildAllWorkloads_ok_iff rfl hport hattr hmin hmax b.target).mpr (httpPort_v4 htarget)

theorem passes_crawl (hfits : Fits spec .crawl) (hname : spec.name = "crawl".toList)
    (htexts : given.Texts spec) (htarget : IpAddress.parseV4 target = some ip)
    (hpath : strParam "path" "/" ∈ spec.params)
    (hscheme : choiceParam "scheme" "http" ["http", "https"] ∈ spec.params)
    (hport : hasInt spec "port" = true) (hbytes : hasInt spec "max-bytes" = true)
    (htimeout : hasInt spec "timeout" = true) :
    Passes spec target given ↔
      (1 ≤ given.nums "port".toList ∧ given.nums "port".toList ≤ 65535) ∧
        (1 ≤ given.nums "max-bytes".toList ∧ given.nums "max-bytes".toList ≤ 4194304) ∧
        1 ≤ given.nums "timeout".toList ∧ given.nums "timeout".toList ≤ 30 := by
  have b := bound_requestOf hfits target given
  obtain ⟨-, _, _, -, -, hlen, hslash, hforeign⟩ := validText hfits htexts hpath rfl
  obtain ⟨-, default, choices, hkind, hchoice, -⟩ := validText hfits htexts hscheme rfl
  obtain ⟨rfl, rfl⟩ := ParamKind.str.inj hkind
  have hclean := validatePath_of_admitted hlen (hslash rfl) (hforeign hname rfl)
  obtain ⟨hplain, hhead, -⟩ := target_plain htarget
  have hne : target ≠ [] := by
    rintro rfl
    cases hhead
  have hshort := (IpAddress.shape_of_parseV4 htarget).1
  have hip : (ipAddress target).isSome = true := by
    unfold ipAddress
    rw [htarget]
    rfl
  rw [passes_iff_validateArgs hfits (by decide), validateArgs_crawl (bound_int hfits hport rfl)
    (bound_int hfits hbytes rfl) (bound_int hfits htimeout rfl) b.target
    (bound_param hfits hpath rfl) (bound_param hfits hscheme rfl)]
  constructor
  · rintro ⟨hport, ⟨hbytes, htimeout⟩, -⟩
    exact ⟨hport, hbytes, htimeout⟩
  · rintro ⟨hport, hbytes, htimeout⟩
    refine ⟨hport, ⟨hbytes, htimeout⟩, ?_⟩
    exact (targetUrl_ok_iff hplain hne (by omega) hclean (hchoice _ rfl) hport.1 hport.2).mpr
      (.inl hip)

end cli

/-! ## Both -/

section both

variable {spec : WorkloadSpec} {target : PyStr} {given : Assignment} {command : Command} {ip : Nat}

/-- A workload without a port, a limit or a duration is never refused. -/
theorem passes_dns (hfits : Fits spec .dns) : Passes spec target given := by
  rw [passes_iff_validateArgs hfits (by decide), validateArgs_plain (by decide)]
  exact validatePort_unset ((bound_requestOf hfits target given).port_unset (by decide))

/-- Two parameters are related for `wrk` and `flood` alone. -/
theorem admits_iff_inRange (hmem : spec ∈ workloads) (htexts : given.Texts spec)
    (htarget : IpAddress.parseV4 target = some ip) (hwrk : spec.name ≠ "wrk".toList)
    (hflood : spec.name ≠ "flood".toList) :
    Admits spec target given ↔ InRange spec given := by
  rw [admits_iff hmem htexts htarget]
  have hrelated : checkRelated spec.name (given.params spec) = .ok () := by
    unfold checkRelated
    rw [if_neg hwrk, if_neg hflood]
    rfl
  exact and_iff_left hrelated

theorem related_wrk {clean : List (PyStr × ParamValue)} {threads connections : Int}
    (hthreads : clean.lookup "threads".toList = some (.int threads))
    (hconnections : clean.lookup "connections".toList = some (.int connections)) :
    checkRelated "wrk".toList clean = .ok () ↔ threads ≤ connections := by
  have ht : intOf clean "threads" = .ok threads := by
    unfold intOf
    rw [hthreads]
  have hc : intOf clean "connections" = .ok connections := by
    unfold intOf
    rw [hconnections]
  unfold checkRelated
  rw [if_pos rfl, if_neg (by decide), ht, ok_bind, hc, ok_bind, bind_ok_iff]
  constructor
  · rintro ⟨u, hle, -⟩
    exact Int.not_lt.mp (raiseIf_ok_iff.mp hle)
  · intro hle
    exact ⟨(), raiseIf_ok_iff.mpr (Int.not_lt.mpr hle), rfl⟩

theorem related_flood {clean : List (PyStr × ParamValue)} {count rate : Int}
    (hcount : clean.lookup "count".toList = some (.int count))
    (hrate : clean.lookup "rate".toList = some (.int rate)) :
    checkRelated "flood".toList clean = .ok () ↔
      count * WorkloadLimits.intervalUs rate ≤ 300000000 := by
  have hc : intOf clean "count" = .ok count := by
    unfold intOf
    rw [hcount]
  have hr : intOf clean "rate" = .ok rate := by
    unfold intOf
    rw [hrate]
  unfold checkRelated
  rw [if_neg (by decide), if_pos rfl, hr, hc]
  exact raiseIf_ok_iff.trans Int.not_lt

/-- A number is where it is looked up. -/
theorem lookup_int (hfits : Fits spec command) {name : String} (hparam : hasInt spec name = true) :
    (given.params spec).lookup name.toList = some (.int (given.nums name.toList)) := by
  obtain ⟨d, hmem⟩ := mem_of_hasInt hparam
  apply Dict.lookup_of_mem
  · rw [names_params]
    exact hfits.names
  · exact List.mem_map.mpr ⟨intParam name d, hmem, rfl⟩

/-- The two checks agree on an assignment, or it is the one that the CLI alone accepts. -/
def Agree (spec : WorkloadSpec) (target : PyStr) (given : Assignment) : Prop :=
  (¬ IsPortlessFlood spec given → (Admits spec target given ↔ Passes spec target given)) ∧
    (IsPortlessFlood spec given → ¬ Admits spec target given ∧
      (Passes spec target given ↔ Admits spec target (given.withPort 1)))

/-- The texts of an assignment do not depend on its port. -/
theorem texts_withPort (htexts : given.Texts spec) (port : Int) :
    (given.withPort port).Texts spec :=
  htexts

theorem agree_flood (hmem : spec ∈ workloads) (hfits : Fits spec .flood)
    (hname : spec.name = "flood".toList)
    (hparams : spec.params = [choiceParam "type" "syn" ["syn", "icmp", "udp"], intParam "port" 80,
      intParam "count" 2000, intParam "rate" 500])
    (htexts : given.Texts spec) (htarget : IpAddress.parseV4 target = some ip) :
    Agree spec target given := by
  have hcount : hasInt spec "count" = true := by
    rw [hasInt, hparams]
    decide
  have hrate : hasInt spec "rate" = true := by
    rw [hasInt, hparams]
    decide
  have hport : hasInt spec "port" = true := by
    rw [hasInt, hparams]
    decide
  -- the bounds of both, for any port
  have hadmits (given' : Assignment) (htexts' : given'.Texts spec) :
      Admits spec target given' ↔
        (1 ≤ given'.nums "port".toList ∧ given'.nums "port".toList ≤ 65535) ∧
          (1 ≤ given'.nums "count".toList ∧ given'.nums "count".toList ≤ 10000) ∧
          (1 ≤ given'.nums "rate".toList ∧ given'.nums "rate".toList ≤ 1000) ∧
          given'.nums "count".toList * WorkloadLimits.intervalUs (given'.nums "rate".toList) ≤
            300000000 := by
    rw [admits_iff hmem htexts' htarget, InRange, hparams, hname,
      related_flood (lookup_int hfits hcount) (lookup_int hfits hrate)]
    simp only [List.forall_mem_cons, within_nil, and_true, true_and, within_choice,
      within_int _ "port" 65535 rfl, within_int "flood".toList "count" 10000 rfl,
      within_int _ "rate" 1000 rfl, and_assoc]
  have htype : choiceParam "type" "syn" ["syn", "icmp", "udp"] ∈ spec.params := by
    rw [hparams]
    exact List.mem_cons_self
  have hpasses := passes_flood target hfits htexts htype hport hcount hrate
  constructor
  · intro hno
    rw [hadmits given htexts, hpasses]
    by_cases hicmp : given.texts "type".toList = "icmp".toList
    · have hne : given.nums "port".toList ≠ 0 := fun hzero => hno ⟨hname, hicmp, hzero⟩
      rw [if_pos hicmp]
      constructor
      · rintro ⟨⟨hmin, hmax⟩, hrest⟩
        exact ⟨⟨by omega, hmax⟩, hrest⟩
      · rintro ⟨⟨hmin, hmax⟩, hrest⟩
        exact ⟨⟨by omega, hmax⟩, hrest⟩
    · rw [if_neg hicmp]
  · rintro ⟨-, hicmp, hzero⟩
    have hone : (given.withPort 1).nums "port".toList = 1 := by
      show update given.nums "port".toList 1 "port".toList = 1
      rw [update_self]
    have hcountOne : (given.withPort 1).nums "count".toList = given.nums "count".toList := rfl
    have hrateOne : (given.withPort 1).nums "rate".toList = given.nums "rate".toList := rfl
    rw [hadmits given htexts, hpasses, hadmits _ (texts_withPort htexts 1), hone, hcountOne,
      hrateOne, hzero, if_pos hicmp]
    constructor
    · rintro ⟨⟨hmin, -⟩, -⟩
      omega
    · constructor
      · rintro ⟨-, hrest⟩
        exact ⟨by decide, hrest⟩
      · rintro ⟨-, hrest⟩
        exact ⟨by decide, hrest⟩

/-- **The dashboard and the CLI accept the same numbers**, but that the CLI alone accepts
an ICMP flood to port 0, where the dashboard would accept it to another port. -/
theorem numeric_bounds_agree (hmem : spec ∈ workloads) (htexts : given.Texts spec)
    (htarget : IpAddress.parseV4 target = some ip) :
    (¬ IsPortlessFlood spec given → (Admits spec target given ↔ Passes spec target given)) ∧
      (IsPortlessFlood spec given → ¬ Admits spec target given ∧
        (Passes spec target given ↔ Admits spec target (given.withPort 1))) := by
  obtain ⟨command, hfits⟩ := fits_of_mem hmem
  have hunrelated (hwrk : spec.name ≠ "wrk".toList) (hflood : spec.name ≠ "flood".toList)
      (hiff : InRange spec given ↔ Passes spec target given) : Agree spec target given := by
    refine ⟨fun _ => (admits_iff_inRange hmem htexts htarget hwrk hflood).trans hiff, ?_⟩
    rintro ⟨hname, -⟩
    exact absurd hname hflood
  have hcases := hmem
  simp only [workloads, List.mem_cons, List.not_mem_nil, or_false] at hcases
  show Agree spec target given
  -- one case per workload: the ranges it declares are those of its CLI command
  rcases hcases with rfl | rfl | rfl | rfl | rfl | rfl | rfl | rfl | rfl | rfl | rfl | rfl | rfl |
    rfl | rfl | rfl
  · obtain rfl := hfits.command_eq (c := .http) (by decide)
    apply hunrelated (by decide) (by decide)
    rw [passes_plain hfits (by decide) (by decide)]
    simp only [InRange, List.forall_mem_cons, within_nil, and_true, within_str,
      within_int _ "port" 65535 rfl]
  · obtain rfl := hfits.command_eq (c := .crawl) (by decide)
    apply hunrelated (by decide) (by decide)
    rw [passes_crawl hfits rfl htexts htarget (by decide) (by decide) (by decide) (by decide)
      (by decide)]
    simp only [InRange, List.forall_mem_cons, within_nil, and_true, true_and, within_str,
      within_choice, within_int _ "port" 65535 rfl,
      within_int _ "max-bytes" 4194304 rfl, within_int _ "timeout" 30 rfl]
  · obtain rfl := hfits.command_eq (c := .dns) (by decide)
    apply hunrelated (by decide) (by decide)
    simp only [InRange, List.forall_mem_cons, within_nil, and_true, within_str, passes_dns hfits]
  · obtain rfl := hfits.command_eq (c := .handshake) (by decide)
    apply hunrelated (by decide) (by decide)
    rw [passes_plain hfits (by decide) (by decide)]
    simp only [InRange, List.forall_mem_cons, within_nil, and_true, within_choice,
      within_int _ "port" 65535 rfl]
  · obtain rfl := hfits.command_eq (c := .eicar) (by decide)
    exact hunrelated (by decide) (by decide) (inRange_iff_passes_port hfits (by decide) rfl rfl)
  · obtain rfl := hfits.command_eq (c := .gtube) (by decide)
    exact hunrelated (by decide) (by decide) (inRange_iff_passes_port hfits (by decide) rfl rfl)
  · obtain rfl := hfits.command_eq (c := .scan) (by decide)
    apply hunrelated (by decide) (by decide)
    rw [passes_scan hfits (by decide)]
    simp only [InRange, List.forall_mem_cons, within_nil, and_true, true_and, within_choice,
      within_int _ "max-ports" 4096 rfl]
  · obtain rfl := hfits.command_eq (c := .flood) (by decide)
    -- the one workload where they differ
    exact agree_flood hmem hfits rfl rfl htexts htarget
  · obtain rfl := hfits.command_eq (c := .malformed) (by decide)
    exact hunrelated (by decide) (by decide) (inRange_iff_passes_port hfits (by decide) rfl rfl)
  · obtain rfl := hfits.command_eq (c := .badcsum) (by decide)
    exact hunrelated (by decide) (by decide) (inRange_iff_passes_port hfits (by decide) rfl rfl)
  · obtain rfl := hfits.command_eq (c := .ttl) (by decide)
    apply hunrelated (by decide) (by decide)
    rw [passes_ttl hfits (by decide) (by decide)]
    simp only [InRange, List.forall_mem_cons, within_nil, and_true,
      within_int _ "port" 65535 rfl, within_int _ "ttl" 255 rfl]
  · obtain rfl := hfits.command_eq (c := .frag) (by decide)
    apply hunrelated (by decide) (by decide)
    rw [passes_frag hfits (by decide) (by decide)]
    simp only [InRange, List.forall_mem_cons, within_nil, and_true,
      within_int _ "port" 65535 rfl, within_int "frag".toList "count" 64 rfl]
  · obtain rfl := hfits.command_eq (c := .deny) (by decide)
    exact hunrelated (by decide) (by decide) (inRange_iff_passes_port hfits (by decide) rfl rfl)
  · obtain rfl := hfits.command_eq (c := .wrk) (by decide)
    -- `wrk` relates two of its numbers, on both sides
    refine ⟨fun _ => ?_, fun hflood => absurd hflood.1 (by decide)⟩
    rw [admits_iff hmem htexts htarget, passes_wrk hfits htarget (by decide) (by decide)
      (by decide) (by decide),
      related_wrk (lookup_int hfits (by decide)) (lookup_int hfits (by decide))]
    simp only [InRange, List.forall_mem_cons, within_nil, and_true,
      within_int _ "connections" 10000 rfl, within_int _ "threads" 64 rfl,
      within_int _ "duration" 300 rfl]
    omega
  · obtain rfl := hfits.command_eq (c := .iperf) (by decide)
    apply hunrelated (by decide) (by decide)
    rw [passes_iperf hfits (by decide) (by decide) (by decide)]
    simp only [InRange, List.forall_mem_cons, within_nil, and_true,
      within_int _ "port" 65535 rfl, within_int _ "parallel" 32 rfl,
      within_int _ "duration" 300 rfl]
    omega
  · obtain rfl := hfits.command_eq (c := .all) (by decide)
    apply hunrelated (by decide) (by decide)
    rw [passes_all hfits htarget (by decide)]
    simp only [InRange, List.forall_mem_cons, within_nil, and_true, within_int _ "duration" 300 rfl]

/-- An ICMP flood to port 0. -/
def portlessFlood : Assignment :=
  { nums := update (fun _ => 100) "port".toList 0
    texts := fun _ => "icmp".toList }

/-- The entry of the catalogue for a flood. -/
def floodSpec : WorkloadSpec :=
  ⟨"flood".toList, true, true, [choiceParam "type" "syn" ["syn", "icmp", "udp"],
    intParam "port" 80, intParam "count" 2000, intParam "rate" 500]⟩

theorem numeric_bounds_agree_flood :
    ¬ Admits floodSpec "192.0.2.1".toList portlessFlood ∧
      Passes floodSpec "192.0.2.1".toList portlessFlood := by
  have hmem : floodSpec ∈ workloads := by decide
  have htarget : IpAddress.parseV4 "192.0.2.1".toList = some 3221225985 := by decide
  have htexts : portlessFlood.Texts floodSpec := by
    intro param hparam default choices hkind
    simp only [floodSpec, List.mem_cons, List.not_mem_nil, or_false] at hparam
    rcases hparam with rfl | rfl | rfl | rfl
    · cases hkind
      rfl
    all_goals cases hkind
  have hflood : IsPortlessFlood floodSpec portlessFlood := ⟨rfl, rfl, rfl⟩
  obtain ⟨hno, hiff⟩ := (numeric_bounds_agree hmem htexts htarget).2 hflood
  exact ⟨hno, hiff.mpr ⟨_, rfl⟩⟩

end both

end SrxProbe.Dashboard
