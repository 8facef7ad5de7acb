import SrxProbe.Dashboard.Request

/-!
# What an admitted request is

Everything that `validate_request` has checked when it returns: the workload is in the
catalogue, the target has only the characters of addresses and hostnames, and every
parameter of the workload is there with a value of its kind, within its bounds.
-/

namespace SrxProbe.Dashboard

open SrxProbe.Lib

/-- A value that passes the checks of its parameter. -/
def ValidParam (workload : PyStr) (param : ParamSpec) : ParamValue → Prop
  | .int n => (∃ default, param.kind = .int default) ∧
      ∃ limit, (limits workload).lookup param.name = some limit ∧ 1 ≤ n ∧ n ≤ limit
  | .str s => s ≠ [] ∧ ∃ default choices, param.kind = .str default choices ∧
      (∀ list ∈ choices, s ∈ list) ∧
      s.length ≤ (if param.name = "path".toList then 2048 else 253) ∧
      (param.name = "path".toList → s.head? = some '/') ∧
      (workload = "crawl".toList → param.name = "path".toList → isForeignPath s = false)

/-- A request in the form that `validate_request` returns. -/
structure Admitted (spec : WorkloadSpec) (req : ValidRequest) : Prop where
  workload : req.workload = spec.name
  known : workload? spec.name = some spec
  target : isTarget req.target = true
  short : req.target.length ≤ 253
  params : List.Forall₂ (fun param entry => entry.1 = param.name ∧
    ValidParam spec.name param entry.2) spec.params req.params
  related : checkRelated spec.name req.params = .ok ()

theorem eq_str_of_str? {value : PyValue} {s : PyStr} (h : value.str? = some s) :
    value = .str s := by
  unfold PyValue.str? at h
  split at h
  · rw [Option.some.inj h]
  · cases h

/-- A text is read from a string, without the space around it. -/
theorem text_ok_iff {value : PyValue} {label s : PyStr} {limit : Nat} :
    text value label limit = .ok s ↔
      ∃ raw, value = .str raw ∧ raw.length ≤ limit ∧ raw.any isControl = false ∧
        s = strip raw := by
  unfold text
  constructor
  · intro h
    obtain ⟨raw, hraw, h⟩ := bind_ok_iff.mp h
    obtain ⟨u, hlimit, h⟩ := bind_ok_iff.mp h
    cases h
    have hvalue := eq_str_of_str? (orRaise_ok_iff.mp hraw)
    have hno := not_or.mp (raiseIf_ok_iff.mp hlimit)
    exact ⟨raw, hvalue, Nat.not_lt.mp hno.1, Bool.eq_false_iff.mpr hno.2, rfl⟩
  · rintro ⟨raw, rfl, hlen, hcontrol, rfl⟩
    refine bind_ok_iff.mpr ⟨raw, rfl, ?_⟩
    refine bind_ok_iff.mpr ⟨(), raiseIf_of_not ?_, rfl⟩
    simp [hlen, hcontrol]

theorem text_ok {value : PyValue} {label s : PyStr} {limit : Nat}
    (h : text value label limit = .ok s) : s.length ≤ limit := by
  obtain ⟨raw, -, hlen, -, rfl⟩ := text_ok_iff.mp h
  obtain ⟨lead, trail, hsplit, -, -⟩ := exists_strip raw
  have hsum := congrArg List.length hsplit
  rw [List.length_append, List.length_append] at hsum
  omega

theorem cleanInt_ok_iff {workload name : PyStr} {value : PyValue} {n : Int} :
    cleanInt workload name value = .ok n ↔ readNumber name value = .ok n ∧
      ∃ limit, (limits workload).lookup name = some limit ∧ 1 ≤ n ∧ n ≤ limit := by
  unfold cleanInt
  constructor
  · intro h
    obtain ⟨m, hm, h⟩ := bind_ok_iff.mp h
    obtain ⟨limit, hlimit, h⟩ := bind_ok_iff.mp h
    obtain ⟨u, hrange, h⟩ := bind_ok_iff.mp h
    cases h
    have hbounds := Decidable.not_not.mp (raiseIf_ok_iff.mp hrange)
    exact ⟨hm, limit, orRaise_ok_iff.mp hlimit, hbounds⟩
  · rintro ⟨hn, limit, hlimit, hbounds⟩
    rw [hn, ok_bind, hlimit, orRaise_some, ok_bind, raiseIf_of_not (not_not_intro hbounds), ok_bind]

/-- The checks on the text of a parameter. -/
structure ValidText (workload name : PyStr) (choices : Option (List PyStr)) (s : PyStr) :
    Prop where
  nonempty : s ≠ []
  choice : ∀ list ∈ choices, s ∈ list
  path : name = "path".toList → s.head? = some '/'
  crawl : workload = "crawl".toList → name = "path".toList → isForeignPath s = false
  qname : name = "qname".toList → isQname s = true

theorem cleanText_ok_iff {workload name s : PyStr} {choices : Option (List PyStr)}
    {value : PyValue} : cleanText workload name choices value = .ok s ↔
      text value name (if name = "path".toList then 2048 else 253) = .ok s ∧
        ValidText workload name choices s := by
  unfold cleanText
  constructor
  · intro h
    obtain ⟨s', htext, h⟩ := bind_ok_iff.mp h
    obtain ⟨hinvalid, h⟩ := seq_ok_iff.mp h
    obtain ⟨hslash, h⟩ := seq_ok_iff.mp h
    obtain ⟨hforeign, h⟩ := seq_ok_iff.mp h
    obtain ⟨hqname, h⟩ := seq_ok_iff.mp h
    cases h
    have hinvalid := not_or.mp (raiseIf_ok_iff.mp hinvalid)
    have hslash := raiseIf_ok_iff.mp hslash
    have hforeign := raiseIf_ok_iff.mp hforeign
    have hqname := raiseIf_ok_iff.mp hqname
    exact ⟨htext,
      { nonempty := hinvalid.1
        choice := fun list hlist => by_contra fun hno => hinvalid.2 ⟨list, hlist, hno⟩
        path := fun hpath => by_contra fun hno => hslash ⟨hpath, hno⟩
        crawl := fun hcrawl hpath => eq_false_of_ne_true fun hyes => hforeign ⟨hcrawl, hpath, hyes⟩
        qname := fun hname => eq_true_of_ne_false fun hno => hqname ⟨hname, hno⟩ }⟩
  · rintro ⟨htext, h⟩
    have hinvalid : ¬ (s = [] ∨ ∃ list ∈ choices, s ∉ list) := by
      rintro (hnil | ⟨list, hlist, hno⟩)
      · exact h.nonempty hnil
      · exact hno (h.choice list hlist)
    have hforeign : ¬ (workload = "crawl".toList ∧ name = "path".toList ∧
        isForeignPath s = true) :=
      fun ⟨hcrawl, hpath, hyes⟩ => ne_true_of_eq_false (h.crawl hcrawl hpath) hyes
    rw [htext, ok_bind, raiseIf_of_not hinvalid, ok_bind,
      raiseIf_of_not fun hno => hno.2 (h.path hno.1), ok_bind, raiseIf_of_not hforeign, ok_bind,
      raiseIf_of_not fun hno => ne_true_of_eq_false hno.2 (h.qname hno.1), ok_bind]

theorem cleanParam_ok {workload : PyStr} {params : List (PyStr × PyValue)} {spec : ParamSpec}
    {entry : PyStr × ParamValue} (h : cleanParam workload params spec = .ok entry) :
    entry.1 = spec.name ∧ ValidParam workload spec entry.2 := by
  unfold cleanParam at h
  simp only at h
  split at h
  · rename_i default hkind
    obtain ⟨n, hn, h⟩ := bind_ok_iff.mp h
    cases h
    exact ⟨rfl, ⟨default, hkind⟩, (cleanInt_ok_iff.mp hn).2⟩
  · rename_i default choices hkind
    obtain ⟨s, hs, h⟩ := bind_ok_iff.mp h
    cases h
    obtain ⟨htext, hvalid⟩ := cleanText_ok_iff.mp hs
    exact ⟨rfl, hvalid.nonempty, default, choices, hkind, hvalid.choice, text_ok htext,
      hvalid.path, hvalid.crawl⟩

theorem intOf_ok {params : List (PyStr × ParamValue)} {name : String} {n : Int}
    (h : params.lookup name.toList = some (.int n)) : intOf params name = .ok n := by
  unfold intOf
  rw [h]

theorem workload?_some {name : PyStr} {spec : WorkloadSpec} (h : workload? name = some spec) :
    spec ∈ workloads ∧ spec.name = name := by
  unfold workload? at h
  have hname := List.find?_some h
  exact ⟨List.mem_of_find?_eq_some h, of_decide_eq_true hname⟩

/-- What the loop over the parameters has made of them. -/
def Cleaned (spec : WorkloadSpec) (given : List (PyStr × PyValue))
    (clean : List (PyStr × ParamValue)) : Prop :=
  List.Forall₂ (fun param entry => cleanParam spec.name given param = .ok entry) spec.params clean

/-- The checks that a body has passed, with what they have read. -/
structure Accepts (body : List (PyStr × PyValue)) (spec : WorkloadSpec)
    (given : List (PyStr × PyValue)) (req : ValidRequest) : Prop where
  fields : ∀ entry ∈ body, entry.1 ∈ bodyFields
  known : ((body.lookup "workload".toList).bind PyValue.str?).bind workload? = some spec
  workload : req.workload = spec.name
  target : text ((body.lookup "target".toList).getD .none) "target".toList 253 = .ok req.target
  pattern : isTarget req.target = true
  src : text ((body.lookup "src".toList).getD (.str [])) "src".toList 45 = .ok req.src
  address : ¬ (req.src ≠ [] ∧ ipAddress req.src = none)
  confirmed : ∃ confirmed, confirmedOf body = .ok confirmed ∧
    ¬ (spec.aggressive = true ∧ confirmed = false)
  requestId : requestIdOf body = .ok req.requestId
  dict : (body.lookup "params".toList).getD (.dict []) = .dict given
  names : ∀ entry ∈ given, entry.1 ∈ spec.params.map ParamSpec.name
  params : Cleaned spec given req.params
  related : checkRelated spec.name req.params = .ok ()

theorem entriesOf_ok_iff {value : PyValue} {err : PyErr} {entries : List (PyStr × PyValue)} :
    entriesOf value err = .ok entries ↔ value = .dict entries := by
  constructor
  · intro h
    unfold entriesOf at h
    split at h
    · cases h
      rfl
    · cases h
  · rintro rfl
    rfl

theorem validateRequest_ok_iff {body : PyValue} {req : ValidRequest} :
    validateRequest body = .ok req ↔
      ∃ entries spec given, body = .dict entries ∧ Accepts entries spec given req := by
  unfold validateRequest
  dsimp only
  constructor
  · intro h
    obtain ⟨entries, hbody, h⟩ := bind_ok_iff.mp h
    obtain ⟨u₁, hfields, h⟩ := bind_ok_iff.mp h
    obtain ⟨spec, hspec, h⟩ := bind_ok_iff.mp h
    obtain ⟨target, htarget, h⟩ := bind_ok_iff.mp h
    obtain ⟨u₂, hpattern, h⟩ := bind_ok_iff.mp h
    obtain ⟨src, hsrc, h⟩ := bind_ok_iff.mp h
    obtain ⟨u₃, haddress, h⟩ := bind_ok_iff.mp h
    obtain ⟨confirmed, hconfirmed, h⟩ := bind_ok_iff.mp h
    obtain ⟨u₄, haggressive, h⟩ := bind_ok_iff.mp h
    obtain ⟨requestId, hid, h⟩ := bind_ok_iff.mp h
    obtain ⟨given, hgiven, h⟩ := bind_ok_iff.mp h
    obtain ⟨u₅, hnames, h⟩ := bind_ok_iff.mp h
    obtain ⟨clean, hclean, h⟩ := bind_ok_iff.mp h
    obtain ⟨u₆, hrelated, h⟩ := bind_ok_iff.mp h
    cases h
    refine ⟨entries, spec, given, entriesOf_ok_iff.mp hbody, ?_⟩
    have hfields := raiseIf_ok_iff.mp hfields
    have hnames := raiseIf_ok_iff.mp hnames
    exact
      { fields := fun entry he => by_contra fun hno => hfields ⟨entry, he, hno⟩
        known := orRaise_ok_iff.mp hspec
        workload := rfl
        target := htarget
        pattern := Bool.not_eq_false _ ▸ raiseIf_ok_iff.mp hpattern
        src := hsrc
        address := raiseIf_ok_iff.mp haddress
        confirmed := ⟨confirmed, hconfirmed, raiseIf_ok_iff.mp haggressive⟩
        requestId := hid
        dict := entriesOf_ok_iff.mp hgiven
        names := fun entry he => by_contra fun hno => hnames ⟨entry, he, hno⟩
        params := mapM_ok_iff.mp hclean
        related := hrelated }
  · rintro ⟨entries, spec, given, rfl, h⟩
    obtain ⟨confirmed, hconfirmed, haggressive⟩ := h.confirmed
    have hfields : ¬ ∃ entry ∈ entries, entry.1 ∉ bodyFields :=
      fun ⟨entry, he, hno⟩ => hno (h.fields entry he)
    have hnames : ¬ ∃ entry ∈ given, entry.1 ∉ spec.params.map ParamSpec.name :=
      fun ⟨entry, he, hno⟩ => hno (h.names entry he)
    rw [entriesOf, ok_bind, raiseIf_of_not hfields, ok_bind, h.known, orRaise_some, ok_bind,
      h.target, ok_bind, raiseIf_of_not (by simp [h.pattern]), ok_bind, h.src, ok_bind,
      raiseIf_of_not h.address, ok_bind, hconfirmed, ok_bind, raiseIf_of_not haggressive,
      ok_bind, h.requestId, ok_bind, h.dict, entriesOf, ok_bind, raiseIf_of_not hnames, ok_bind,
      mapM_ok_iff.mpr h.params, ok_bind, h.related, ok_bind, ← h.workload]

/-- The workload of an accepted request is in the catalogue. -/
theorem Accepts.mem {body given : List (PyStr × PyValue)} {spec : WorkloadSpec}
    {req : ValidRequest} (h : Accepts body spec given req) :
    spec ∈ workloads ∧ workload? spec.name = some spec := by
  obtain ⟨name, -, hfind⟩ := Option.bind_eq_some_iff.mp h.known
  obtain ⟨hmem, hname⟩ := workload?_some hfind
  exact ⟨hmem, hname ▸ hfind⟩

/-- What `validate_request` accepts is an admitted request. -/
theorem admitted_of_ok {body : PyValue} {req : ValidRequest} (h : validateRequest body = .ok req) :
    ∃ spec, Admitted spec req := by
  obtain ⟨entries, spec, given, -, h⟩ := validateRequest_ok_iff.mp h
  exact ⟨spec, h.workload, h.mem.2, h.pattern, text_ok h.target,
    h.params.imp fun param entry hentry => cleanParam_ok hentry, h.related⟩

end SrxProbe.Dashboard
