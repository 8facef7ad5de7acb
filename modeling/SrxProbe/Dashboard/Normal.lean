import SrxProbe.Dashboard.Admission
import SrxProbe.Dashboard.RequestSpec

/-!
# The normal form of a request

What `validate_request` returns, as a request body, is accepted again and returned
unchanged, so two bodies that mean the same are one request to `spawn_run`. A body that
is not accepted fails with a `ValueError`, whatever JSON it is.
-/

namespace SrxProbe.Dashboard

open SrxProbe.Lib

/-! ## Nothing but `ValueError` -/

/-- The exception is a `ValueError`, of this module or of the standard library. -/
def IsValueError (e : PyErr) : Prop := (∃ message, e = .valueError message) ∨ e = .stdValueError

theorem isValueError_message (message : PyStr) : IsValueError (.valueError message) :=
  .inl ⟨message, rfl⟩

theorem only_text (value : PyValue) (label : PyStr) (limit : Nat) :
    OnlyRaises IsValueError (text value label limit) := by
  refine .bind (.orRaise (isValueError_message _)) fun s _ => ?_
  exact .bind (.raiseIf (isValueError_message _)) fun _ _ => .ok _

/-- Each check of a parameter of the catalogue finds its bound. -/
theorem catalogue_limits : workloads.all (fun spec => spec.params.all fun param =>
    match param.kind with
    | .int _ => ((limits spec.name).lookup param.name).isSome
    | .str _ _ => true) = true := by decide

theorem only_readNumber (name : PyStr) (value : PyValue) :
    OnlyRaises IsValueError (readNumber name value) := by
  cases value with
  | int n => exact .ok n
  | str s =>
      show OnlyRaises IsValueError (if isShortNumber s then _ else _)
      split
      · exact .orRaise (.inr rfl)
      · exact .error (isValueError_message _)
  | none => exact .error (isValueError_message _)
  | bool b => exact .error (isValueError_message _)
  | float t => exact .error (isValueError_message _)
  | list items => exact .error (isValueError_message _)
  | dict entries => exact .error (isValueError_message _)

theorem only_cleanInt {workload name : PyStr} {limit : Int}
    (h : (limits workload).lookup name = some limit) (value : PyValue) :
    OnlyRaises IsValueError (cleanInt workload name value) := by
  refine .bind (only_readNumber name value) fun n _ => ?_
  rw [h, orRaise_some, ok_bind]
  exact .bind (.raiseIf (isValueError_message _)) fun _ _ => .ok n

theorem only_cleanText (workload name : PyStr) (choices : Option (List PyStr)) (value : PyValue) :
    OnlyRaises IsValueError (cleanText workload name choices value) := by
  refine .bind (only_text value name _) fun s _ => ?_
  refine .bind (.raiseIf (isValueError_message _)) fun _ _ => ?_
  refine .bind (.raiseIf (isValueError_message _)) fun _ _ => ?_
  refine .bind (.raiseIf (isValueError_message _)) fun _ _ => ?_
  exact .bind (.raiseIf (isValueError_message _)) fun _ _ => .ok s

theorem only_cleanParam {spec : WorkloadSpec} (hspec : spec ∈ workloads) {param : ParamSpec}
    (hparam : param ∈ spec.params) (params : List (PyStr × PyValue)) :
    OnlyRaises IsValueError (cleanParam spec.name params param) := by
  have hlimit := List.all_eq_true.mp (List.all_eq_true.mp catalogue_limits spec hspec) param hparam
  unfold cleanParam
  dsimp only
  cases hkind : param.kind with
  | int default =>
      rw [hkind] at hlimit
      obtain ⟨limit, hlimit⟩ := Option.isSome_iff_exists.mp hlimit
      exact .bind (only_cleanInt hlimit _) fun n _ => .ok _
  | str default choices =>
      exact .bind (only_cleanText _ _ _ _) fun s _ => .ok _

theorem only_entriesOf (value : PyValue) (message : PyStr) :
    OnlyRaises IsValueError (entriesOf value (.valueError message)) := by
  cases value with
  | dict entries => exact .ok entries
  | none => exact .error (isValueError_message _)
  | bool b => exact .error (isValueError_message _)
  | int n => exact .error (isValueError_message _)
  | float t => exact .error (isValueError_message _)
  | str s => exact .error (isValueError_message _)
  | list items => exact .error (isValueError_message _)

theorem only_confirmedOf (body : List (PyStr × PyValue)) :
    OnlyRaises IsValueError (confirmedOf body) := by
  unfold confirmedOf
  split
  · exact .ok _
  · exact .ok _
  · exact .error (isValueError_message _)

theorem only_requestIdOf (body : List (PyStr × PyValue)) :
    OnlyRaises IsValueError (requestIdOf body) := by
  unfold requestIdOf
  dsimp only
  split
  · exact .ok _
  · exact .ok _
  · split
    · exact .ok _
    · exact .error (isValueError_message _)
  · exact .error (isValueError_message _)

/-! ### The related parameters -/

theorem catalogue_names :
    workloads.all (fun spec => (spec.params.map ParamSpec.name).Nodup) = true := by decide

/-- The workloads whose parameters are compared have them. -/
theorem catalogue_related : workloads.all (fun spec =>
    (spec.name = "wrk".toList → intParam "threads" 4 ∈ spec.params ∧
      intParam "connections" 100 ∈ spec.params) ∧
    (spec.name = "flood".toList → intParam "rate" 500 ∈ spec.params ∧
      intParam "count" 2000 ∈ spec.params)) = true := by decide

section Cleaned

variable {spec : WorkloadSpec} {given : List (PyStr × PyValue)} {clean : List (PyStr × ParamValue)}

theorem Cleaned.names (h : Cleaned spec given clean) :
    clean.map Prod.fst = spec.params.map ParamSpec.name := by
  unfold Cleaned at h
  generalize spec.params = params at h
  induction h with
  | nil => rfl
  | cons hhead _ ih => rw [List.map_cons, List.map_cons, ih, (cleanParam_ok hhead).1]

/-- Each parameter is found under its name. -/
theorem Cleaned.lookup (h : Cleaned spec given clean) (hspec : spec ∈ workloads)
    {param : ParamSpec} (hparam : param ∈ spec.params) :
    ∃ value, cleanParam spec.name given param = .ok (param.name, value) ∧
      clean.lookup param.name = some value := by
  have hnodup : (clean.map Prod.fst).Nodup := by
    rw [h.names]
    exact of_decide_eq_true (List.all_eq_true.mp catalogue_names spec hspec)
  obtain ⟨i, hi, rfl⟩ := List.getElem_of_mem hparam
  have hlen := h.length_eq
  have hclean := h.get hi (hlen ▸ hi)
  obtain ⟨hname, -⟩ := cleanParam_ok hclean
  have hentry : clean.get ⟨i, hlen ▸ hi⟩ =
      (spec.params[i].name, (clean.get ⟨i, hlen ▸ hi⟩).2) := Prod.ext hname rfl
  refine ⟨_, hclean.trans (congrArg Except.ok hentry), ?_⟩
  exact Dict.lookup_of_mem hnodup (hentry ▸ List.get_mem clean ⟨i, hlen ▸ hi⟩)

/-- `clean[name]` of an integer parameter of the catalogue. -/
theorem Cleaned.intOf (h : Cleaned spec given clean) (hspec : spec ∈ workloads) {name : String}
    {default : Int} (hparam : intParam name default ∈ spec.params) :
    ∃ n, intOf clean name = .ok n := by
  obtain ⟨value, hclean, hlookup⟩ := h.lookup hspec hparam
  obtain ⟨n, -, hvalue⟩ := bind_ok_iff.mp hclean
  cases hvalue
  exact ⟨n, intOf_ok hlookup⟩

theorem Cleaned.only_checkRelated (h : Cleaned spec given clean) (hspec : spec ∈ workloads) :
    OnlyRaises IsValueError (checkRelated spec.name clean) := by
  obtain ⟨hwrk, hflood⟩ := of_decide_eq_true (List.all_eq_true.mp catalogue_related spec hspec)
  by_cases hname : spec.name = "wrk".toList
  · obtain ⟨threads, hthreads⟩ := h.intOf hspec (hwrk hname).1
    obtain ⟨connections, hconnections⟩ := h.intOf hspec (hwrk hname).2
    unfold checkRelated
    rw [if_pos hname, if_neg (by rw [hname]; decide), hthreads, ok_bind, hconnections, ok_bind]
    exact .bind (.raiseIf (isValueError_message _)) fun _ _ => .ok _
  · by_cases hname' : spec.name = "flood".toList
    · obtain ⟨rate, hrate⟩ := h.intOf hspec (hflood hname').1
      obtain ⟨count, hcount⟩ := h.intOf hspec (hflood hname').2
      unfold checkRelated
      rw [if_neg hname, if_pos hname', hrate, hcount]
      exact .raiseIf (isValueError_message _)
    · unfold checkRelated
      rw [if_neg hname, if_neg hname']
      exact .ok _

end Cleaned

/-- **A request that is not accepted fails with a `ValueError`.** -/
theorem only_validateRequest (body : PyValue) : OnlyRaises IsValueError (validateRequest body) := by
  unfold validateRequest
  dsimp only
  refine .bind (only_entriesOf _ _) fun body _ => ?_
  refine .bind (.raiseIf (isValueError_message _)) fun _ _ => ?_
  refine .bind (.orRaise (isValueError_message _)) fun spec hspec => ?_
  obtain ⟨name, -, hfind⟩ := Option.bind_eq_some_iff.mp (orRaise_ok_iff.mp hspec)
  have hmem := (workload?_some hfind).1
  refine .bind (only_text _ _ _) fun target _ => ?_
  refine .bind (.raiseIf (isValueError_message _)) fun _ _ => ?_
  refine .bind (only_text _ _ _) fun src _ => ?_
  refine .bind (.raiseIf (.inr rfl)) fun _ _ => ?_
  refine .bind (only_confirmedOf body) fun confirmed _ => ?_
  refine .bind (.raiseIf (isValueError_message _)) fun _ _ => ?_
  refine .bind (only_requestIdOf body) fun requestId _ => ?_
  refine .bind (only_entriesOf _ _) fun params _ => ?_
  refine .bind (.raiseIf (isValueError_message _)) fun _ _ => ?_
  refine .bind (.mapM fun param hparam => only_cleanParam hmem hparam params) fun clean hclean => ?_
  refine .bind (Cleaned.only_checkRelated (mapM_ok_iff.mp hclean) hmem) fun _ _ => ?_
  exact .ok _

/-! ## The normal form -/

/-- The parameters in a request body. -/
def ValidRequest.given (req : ValidRequest) : List (PyStr × PyValue) :=
  req.params.map fun entry => (entry.1, entry.2.value)

/-- A request as a body, with `confirm_aggressive` where it is given. -/
def ValidRequest.body (req : ValidRequest) (confirm : Option PyValue) : List (PyStr × PyValue) :=
  let requestId := match req.requestId with
    | none => .none
    | some id => .str id
  [("workload".toList, .str req.workload), ("target".toList, .str req.target),
    ("src".toList, .str req.src), ("params".toList, .dict req.given),
    ("request_id".toList, requestId)] ++
    confirm.toList.map fun value => ("confirm_aggressive".toList, value)

theorem strip_strip (s : PyStr) : strip (strip s) = strip s := by
  have hnil : Blank [] := by
    intro c hc
    cases hc
  have h := strip_between hnil hnil s
  rwa [List.nil_append, List.append_nil] at h

/-- A text that has been read is read again as it is. -/
theorem text_again {value : PyValue} {label s : PyStr} {limit : Nat}
    (h : text value label limit = .ok s) : text (.str s) label limit = .ok s := by
  have hlen := text_ok h
  obtain ⟨raw, -, -, hcontrol, rfl⟩ := text_ok_iff.mp h
  refine text_ok_iff.mpr ⟨strip raw, rfl, hlen, ?_, (strip_strip raw).symm⟩
  rw [List.any_eq_false] at hcontrol ⊢
  intro c hc
  apply hcontrol c
  by_contra hno
  exact not_mem_strip hno hc

theorem cleanInt_again {workload name : PyStr} {value : PyValue} {n : Int}
    (h : cleanInt workload name value = .ok n) : cleanInt workload name (.int n) = .ok n :=
  cleanInt_ok_iff.mpr ⟨rfl, (cleanInt_ok_iff.mp h).2⟩

theorem cleanText_again {workload name : PyStr} {choices : Option (List PyStr)} {value : PyValue}
    {s : PyStr} (h : cleanText workload name choices value = .ok s) :
    s ≠ [] ∧ cleanText workload name choices (.str s) = .ok s := by
  obtain ⟨htext, hvalid⟩ := cleanText_ok_iff.mp h
  exact ⟨hvalid.nonempty, cleanText_ok_iff.mpr ⟨text_again htext, hvalid⟩⟩

/-- The value that a parameter was cleaned to is cleaned to itself. -/
theorem cleanParam_again {workload : PyStr} {given given' : List (PyStr × PyValue)}
    {param : ParamSpec} {entry : PyStr × ParamValue}
    (h : cleanParam workload given param = .ok entry)
    (hlookup : given'.lookup param.name = some entry.2.value) :
    cleanParam workload given' param = .ok entry := by
  unfold cleanParam at h ⊢
  dsimp only at h ⊢
  cases hkind : param.kind with
  | int default =>
      rw [hkind] at h
      obtain ⟨n, hn, h⟩ := bind_ok_iff.mp h
      cases h
      rw [hlookup]
      exact bind_ok_iff.mpr ⟨n, cleanInt_again hn, rfl⟩
  | str default choices =>
      rw [hkind] at h
      obtain ⟨s, hs, h⟩ := bind_ok_iff.mp h
      cases h
      obtain ⟨hne, hagain⟩ := cleanText_again hs
      have hvalue : (PyValue.str s).isEmptyStr = false := by
        cases s with
        | nil => exact absurd rfl hne
        | cons c s => rfl
      rw [hlookup]
      refine bind_ok_iff.mpr ⟨s, ?_, rfl⟩
      show cleanText _ _ _ (if (PyValue.str s).isEmptyStr = true then _ else .str s) = _
      rw [hvalue]
      exact hagain

section normal

variable {body given : List (PyStr × PyValue)} {spec : WorkloadSpec} {req : ValidRequest}

theorem names_given (req : ValidRequest) : req.given.map Prod.fst = req.params.map Prod.fst := by
  simp [ValidRequest.given]

/-- Cleaning the values that were returned gives them back. -/
theorem Accepts.cleaned (h : Accepts body spec given req) :
    Cleaned spec req.given req.params := by
  have hnodup : (req.given.map Prod.fst).Nodup := by
    rw [names_given, h.params.names]
    exact of_decide_eq_true (List.all_eq_true.mp catalogue_names spec h.mem.1)
  obtain ⟨hlen, hall⟩ := List.forall₂_iff_zip.mp h.params
  refine List.forall₂_iff_zip.mpr ⟨hlen, fun {param entry} hzip => ?_⟩
  have hclean := hall hzip
  have hentry : (entry.1, entry.2.value) ∈ req.given :=
    List.mem_map.mpr ⟨entry, (List.of_mem_zip hzip).2, rfl⟩
  have hlookup := Dict.lookup_of_mem hnodup hentry
  rw [(cleanParam_ok hclean).1] at hlookup
  exact cleanParam_again hclean hlookup

theorem requestIdOf_ok {entries : List (PyStr × PyValue)} {id : PyStr}
    (h : requestIdOf entries = .ok (some id)) : isRequestId id = true := by
  unfold requestIdOf at h
  dsimp only at h
  split at h
  · cases h
  · cases h
  · split at h
    · rename_i hid
      cases h
      exact hid
    · cases h
  · cases h

/-- **The normal form is accepted as it is.** -/
theorem Accepts.again (h : Accepts body spec given req) :
    Accepts (req.body (body.lookup "confirm_aggressive".toList)) spec req.given req where
  fields := by
    intro entry he
    have hfields : ∀ name ∈ ["workload".toList, "target".toList, "src".toList, "params".toList,
        "request_id".toList, "confirm_aggressive".toList], name ∈ bodyFields := by decide
    apply hfields
    rcases List.mem_append.mp he with he | he
    · simp only [List.mem_cons, List.not_mem_nil, or_false] at he
      rcases he with rfl | rfl | rfl | rfl | rfl <;> simp
    · obtain ⟨value, -, rfl⟩ := List.mem_map.mp he
      simp
  known := by
    show workload? req.workload = some spec
    rw [h.workload]
    exact h.mem.2
  workload := h.workload
  target := text_again h.target
  pattern := h.pattern
  src := text_again h.src
  address := h.address
  confirmed := by
    obtain ⟨confirmed, hconfirmed, haggressive⟩ := h.confirmed
    refine ⟨confirmed, ?_, haggressive⟩
    rw [← hconfirmed]
    unfold confirmedOf
    cases hlookup : body.lookup "confirm_aggressive".toList <;> rfl
  requestId := by
    have hid := h.requestId
    cases hreq : req.requestId with
    | none =>
        show requestIdOf (req.body _) = _
        unfold ValidRequest.body
        rw [hreq]
        rfl
    | some id =>
        rw [hreq] at hid
        unfold ValidRequest.body
        rw [hreq]
        exact if_pos (requestIdOf_ok hid)
  dict := rfl
  names := by
    intro entry he
    rw [← h.params.names, ← names_given]
    exact List.mem_map_of_mem he
  params := h.cleaned
  related := h.related

end normal

/-! ## Bodies that mean the same -/

/-- The default of a parameter. -/
def ParamKind.default : ParamKind → ParamValue
  | .int n => .int n
  | .str s _ => .str s

/-- What is given for a parameter stands for a value: nothing and the empty string for the
default, a string of an integer for the integer, any other text for itself without the
space around it. -/
inductive Stands : ParamKind → Option PyValue → ParamValue → Prop
  | omitted (kind : ParamKind) : Stands kind none kind.default
  | empty (kind : ParamKind) : Stands kind (some (.str [])) kind.default
  | int (default n : Int) : Stands (.int default) (some (.int n)) (.int n)
  | spelled {default n : Int} {s : PyStr} (h : parseInt s = some n) :
      Stands (.int default) (some (.str s)) (.int n)
  | text {default : PyStr} {choices : Option (List PyStr)} {s : PyStr} (h : s ≠ []) :
      Stands (.str default choices) (some (.str s)) (.str (strip s))

/-- It stands for one value only. -/
theorem Stands.unique {kind : ParamKind} {given : Option PyValue} {v w : ParamValue}
    (hv : Stands kind given v) (hw : Stands kind given w) : v = w := by
  have hempty : ∀ n, parseInt [] ≠ some n := by
    intro n h
    cases h
  cases hv with
  | omitted => cases hw; rfl
  | empty =>
      cases hw with
      | empty => rfl
      | spelled h => exact absurd h (hempty _)
      | text h => exact absurd rfl h
  | int => cases hw; rfl
  | spelled h =>
      cases hw with
      | empty => exact absurd h (hempty _)
      | spelled h' => rw [Option.some.inj (h.symm.trans h')]
  | text h =>
      cases hw with
      | empty => exact absurd rfl h
      | text => rfl

/-- The same text but for the space around it. -/
def SameText (v w : PyValue) : Prop :=
  v = w ∨ ∃ s t, v = .str s ∧ w = .str t ∧ strip s = strip t

/-- Values given for one parameter that are equal or stand for the same. -/
def SameParam (kind : ParamKind) (v w : Option PyValue) : Prop :=
  v = w ∨ ∃ value, Stands kind v value ∧ Stands kind w value

/-- `body.get("params", {})`, of a body that gives a dict. -/
def paramsOf (body : List (PyStr × PyValue)) : List (PyStr × PyValue) :=
  match body.lookup "params".toList with
  | some (.dict entries) => entries
  | _ => []

/-- Two bodies that differ only in how they write the same request. What they confirm is
no part of it. -/
structure SameRequest (a b : List (PyStr × PyValue)) : Prop where
  workload : a.lookup "workload".toList = b.lookup "workload".toList
  target : SameText ((a.lookup "target".toList).getD .none) ((b.lookup "target".toList).getD .none)
  src : SameText ((a.lookup "src".toList).getD (.str [])) ((b.lookup "src".toList).getD (.str []))
  requestId : (a.lookup "request_id".toList).getD .none = (b.lookup "request_id".toList).getD .none
  params : ∀ spec ∈ workloads, a.lookup "workload".toList = some (.str spec.name) →
    ∀ param ∈ spec.params,
      SameParam param.kind ((paramsOf a).lookup param.name) ((paramsOf b).lookup param.name)

theorem SameText.eq {v w : PyValue} (h : SameText v w) {label s t : PyStr} {limit : Nat}
    (hv : text v label limit = .ok s) (hw : text w label limit = .ok t) : s = t := by
  obtain ⟨raw, rfl, -, -, rfl⟩ := text_ok_iff.mp hv
  obtain ⟨raw', rfl, -, -, rfl⟩ := text_ok_iff.mp hw
  rcases h with h | ⟨s, t, hs, ht, heq⟩
  · cases h
    rfl
  · cases hs
    cases ht
    exact heq

/-- The texts of the catalogue have no space around them. -/
theorem catalogue_stripped : workloads.all (fun spec => spec.params.all fun param =>
    match param.kind with
    | .int _ => true
    | .str default _ => strip default = default) = true := by decide

theorem readNumber_stands {name : PyStr} {value : PyValue} {n default : Int}
    (h : readNumber name value = .ok n) : Stands (.int default) (some value) (.int n) := by
  unfold readNumber at h
  dsimp only at h
  split at h
  · cases h
    exact .int default _
  · split at h
    · exact .spelled (orRaise_ok_iff.mp h)
    · cases h
  · cases h

theorem isEmptyStr_iff {value : PyValue} : value.isEmptyStr = true ↔ value = .str [] := by
  unfold PyValue.isEmptyStr
  split
  · simp
  · rename_i hne
    simpa using hne

/-- The default is read where nothing or the empty string is given. -/
theorem given_cases (value : Option PyValue) (default : PyValue) :
    let read := if (value.getD default).isEmptyStr = true then default else value.getD default
    (value = none ∨ value = some (.str [])) ∧ read = default ∨
      ∃ v, value = some v ∧ v ≠ .str [] ∧ read = v := by
  dsimp only
  cases value with
  | none => exact .inl ⟨.inl rfl, ite_self _⟩
  | some v =>
      by_cases hempty : v = .str []
      · exact .inl ⟨.inr (congrArg some hempty), if_pos (isEmptyStr_iff.mpr hempty)⟩
      · exact .inr ⟨v, rfl, hempty, if_neg (mt isEmptyStr_iff.mp hempty)⟩

theorem Stands.default_of {kind : ParamKind} {value : Option PyValue}
    (h : value = none ∨ value = some (.str [])) : Stands kind value kind.default := by
  rcases h with rfl | rfl
  · exact .omitted kind
  · exact .empty kind

/-- What a parameter is cleaned to is what its value stands for. -/
theorem cleanParam_stands {spec : WorkloadSpec} (hspec : spec ∈ workloads) {param : ParamSpec}
    (hparam : param ∈ spec.params) {given : List (PyStr × PyValue)} {entry : PyStr × ParamValue}
    (h : cleanParam spec.name given param = .ok entry) :
    Stands param.kind (given.lookup param.name) entry.2 := by
  have hstripped :=
    List.all_eq_true.mp (List.all_eq_true.mp catalogue_stripped spec hspec) param hparam
  unfold cleanParam at h
  dsimp only at h
  generalize given.lookup param.name = value at h ⊢
  cases hkind : param.kind with
  | int default =>
      rw [hkind] at h
      obtain ⟨n, hn, h⟩ := bind_ok_iff.mp h
      cases h
      obtain ⟨hm, -⟩ := cleanInt_ok_iff.mp hn
      rcases given_cases value (.int default) with ⟨hvalue, hread⟩ | ⟨v, rfl, -, hread⟩
      · rw [hread] at hm
        cases hm
        exact .default_of hvalue
      · rw [hread] at hm
        exact readNumber_stands hm
  | str default choices =>
      rw [hkind] at h hstripped
      obtain ⟨s, hs, h⟩ := bind_ok_iff.mp h
      cases h
      obtain ⟨htext, -⟩ := cleanText_ok_iff.mp hs
      obtain ⟨raw, hraw, -, -, rfl⟩ := text_ok_iff.mp htext
      rcases given_cases value (.str default) with ⟨hvalue, hread⟩ | ⟨v, rfl, hne, hread⟩
      · rw [hread] at hraw
        cases hraw
        rw [show strip default = default from of_decide_eq_true hstripped]
        exact .default_of hvalue
      · rw [hread] at hraw
        cases hraw
        exact .text fun hnil => hne (congrArg PyValue.str hnil)

/-- An absent request id is read like a null one. -/
theorem requestIdOf_congr {a b : List (PyStr × PyValue)}
    (h : (a.lookup "request_id".toList).getD .none = (b.lookup "request_id".toList).getD .none) :
    requestIdOf a = requestIdOf b := by
  have hread : ∀ body : List (PyStr × PyValue), requestIdOf body =
      requestIdOf [("request_id".toList, (body.lookup "request_id".toList).getD .none)] := by
    intro body
    unfold requestIdOf
    cases body.lookup "request_id".toList <;> rfl
  rw [hread a, hread b, h]

/-- **Bodies that mean the same are one request**, where they are both accepted. -/
theorem Accepts.same {a b given given' : List (PyStr × PyValue)} {spec spec' : WorkloadSpec}
    {req req' : ValidRequest} (ha : Accepts a spec given req) (hb : Accepts b spec' given' req')
    (h : SameRequest a b) : req = req' := by
  have hspec : spec = spec' := by
    have hknown := hb.known
    rw [← h.workload, ha.known] at hknown
    exact Option.some.inj hknown
  subst hspec
  have hgiven : ∀ {body given : List (PyStr × PyValue)},
      (body.lookup "params".toList).getD (.dict []) = .dict given → paramsOf body = given := by
    intro body given hdict
    unfold paramsOf
    cases hlookup : body.lookup "params".toList with
    | none =>
        rw [hlookup] at hdict
        cases hdict
        rfl
    | some value =>
        rw [hlookup] at hdict
        cases hdict
        rfl
  have hworkload : a.lookup "workload".toList = some (.str spec.name) := by
    obtain ⟨name, hname, hfind⟩ := Option.bind_eq_some_iff.mp ha.known
    obtain ⟨value, hvalue, hstr⟩ := Option.bind_eq_some_iff.mp hname
    rw [hvalue, eq_str_of_str? hstr, (workload?_some hfind).2]
  have hparams : req.params = req'.params := by
    obtain ⟨hlen, hclean⟩ := List.forall₂_iff_get.mp ha.params
    obtain ⟨hlen', hclean'⟩ := List.forall₂_iff_get.mp hb.params
    refine List.ext_get (hlen.symm.trans hlen') fun i hi hi' => ?_
    have hi₀ : i < spec.params.length := hlen ▸ hi
    have hmem : spec.params.get ⟨i, hi₀⟩ ∈ spec.params := List.get_mem _ _
    have hleft := hclean i hi₀ hi
    have hright := hclean' i hi₀ hi'
    have hsame := h.params spec ha.mem.1 hworkload _ hmem
    rw [hgiven ha.dict, hgiven hb.dict] at hsame
    have hstands := cleanParam_stands ha.mem.1 hmem hleft
    have hstands' := cleanParam_stands ha.mem.1 hmem hright
    refine Prod.ext ((cleanParam_ok hleft).1.trans (cleanParam_ok hright).1.symm) ?_
    rcases hsame with heq | ⟨value, hvalue, hvalue'⟩
    · exact hstands.unique (heq ▸ hstands')
    · exact (hstands.unique hvalue).trans (hvalue'.unique hstands')
  have hid : req.requestId = req'.requestId := by
    have heq := requestIdOf_congr h.requestId
    rw [ha.requestId, hb.requestId] at heq
    exact Except.ok.inj heq
  obtain ⟨workload, target, src, params, requestId⟩ := req
  obtain ⟨workload', target', src', params', requestId'⟩ := req'
  have hnames : workload = workload' := ha.workload.trans hb.workload.symm
  have htargets : target = target' := h.target.eq ha.target hb.target
  have hsrcs : src = src' := h.src.eq ha.src hb.src
  subst hnames htargets hsrcs
  congr

/-- The request that the call of `spawn_run` is made for. -/
def ValidRequest.request (req : ValidRequest) : Request :=
  ⟨req.workload, req.target, req.src, req.params, true⟩

/-- A call for the same request, under the id of a run, is answered with that run. -/
theorem look_retry {s : Registry} {call : Call} {existing : Addr} {rest : List Addr}
    {a b given given' : List (PyStr × PyValue)} {spec spec' : WorkloadSpec}
    {req req' : ValidRequest} (ha : Accepts a spec given req) (hb : Accepts b spec' given' req')
    (hsame : SameRequest a b) (hid : req.requestId.isSome = true)
    (hholder : s.holder = .scanning call (existing :: rest))
    (hrun : (s.heap existing).request = some req.request ∧
      (s.heap existing).requestId = req.requestId)
    (hcall : call.request = req'.request ∧ call.requestId = req'.requestId) :
    s.look = some (s.answer call (.existing existing)) := by
  obtain rfl := ha.same hb hsame
  have hmatch : call.requestId.isSome = true ∧
      (s.heap existing).requestId = call.requestId := by
    rw [hcall.2, hrun.2]
    exact ⟨hid, rfl⟩
  have hequal : ¬ (s.heap existing).request ≠ some call.request := by
    rw [hcall.1, hrun.1]
    exact not_not_intro rfl
  unfold Registry.look
  rw [hholder]
  dsimp only
  rw [if_pos hmatch, if_neg hequal]

/-! ## Every request -/

/-- The value is of the parameter's kind. -/
def ParamKind.Has : ParamKind → ParamValue → Prop
  | .int _, .int _ => True
  | .str _ _, .str _ => True
  | _, _ => False

theorem has_of_stands {kind : ParamKind} {given : Option PyValue} {value : ParamValue}
    (h : Stands kind given value) : kind.Has value := by
  cases h with
  | omitted => cases kind <;> trivial
  | empty => cases kind <;> trivial
  | int => trivial
  | spelled => trivial
  | text => trivial

theorem confirmedOf_true {entries : List (PyStr × PyValue)} (h : confirmedOf entries = .ok true) :
    entries.lookup "confirm_aggressive".toList = some (.bool true) := by
  unfold confirmedOf at h
  split at h
  · cases h
  · rename_i confirmed hlookup
    cases h
    exact hlookup
  · cases h

/-- **Validation has a normal form.** It raises nothing but `ValueError`; what it returns has
the parameters of the catalogue, each of its kind, and was confirmed if it is aggressive, and
as a body it is returned again; bodies that mean the same are one request. -/
theorem validateRequest_normal :
    (∀ body, OnlyRaises IsValueError (validateRequest body)) ∧
    (∀ body req, validateRequest body = .ok req →
      ∃ entries spec, body = .dict entries ∧ workload? req.workload = some spec ∧
        List.Forall₂ (fun param entry => entry.1 = param.name ∧ param.kind.Has entry.2)
          spec.params req.params ∧
        (spec.aggressive = true →
          entries.lookup "confirm_aggressive".toList = some (.bool true)) ∧
        validateRequest (.dict (req.body (entries.lookup "confirm_aggressive".toList))) =
          .ok req) ∧
    ∀ a b req req', validateRequest (.dict a) = .ok req → validateRequest (.dict b) = .ok req' →
      SameRequest a b → req = req' := by
  refine ⟨only_validateRequest, ?_, ?_⟩
  · intro body req h
    obtain ⟨entries, spec, given, rfl, haccepts⟩ := validateRequest_ok_iff.mp h
    have hmem := haccepts.mem
    refine ⟨entries, spec, rfl, haccepts.workload ▸ hmem.2, ?_, ?_, ?_⟩
    · obtain ⟨hlen, hclean⟩ := List.forall₂_iff_zip.mp haccepts.params
      refine List.forall₂_iff_zip.mpr ⟨hlen, fun {param entry} hzip => ?_⟩
      have hentry := hclean hzip
      exact ⟨(cleanParam_ok hentry).1,
        has_of_stands (cleanParam_stands hmem.1 (List.of_mem_zip hzip).1 hentry)⟩
    · intro haggressive
      obtain ⟨confirmed, hconfirmed, hno⟩ := haccepts.confirmed
      cases confirmed with
      | false => exact absurd ⟨haggressive, rfl⟩ hno
      | true => exact confirmedOf_true hconfirmed
    · exact validateRequest_ok_iff.mpr ⟨_, spec, req.given, rfl, haccepts.again⟩
  · intro a b req req' ha hb hsame
    obtain ⟨entries, spec, given, hbody, haccepts⟩ := validateRequest_ok_iff.mp ha
    obtain ⟨entries', spec', given', hbody', haccepts'⟩ := validateRequest_ok_iff.mp hb
    cases hbody
    cases hbody'
    exact haccepts.same haccepts' hsame

/-- A request as it may be sent first, and as it may be sent again. -/
def firstBody : List (PyStr × PyValue) :=
  [("workload".toList, .str "http".toList), ("target".toList, .str " lab.example ".toList),
    ("params".toList, .dict [("port".toList, .str "0080".toList)]),
    ("request_id".toList, .str "retry-0001".toList)]

def retryBody : List (PyStr × PyValue) :=
  [("workload".toList, .str "http".toList), ("target".toList, .str "lab.example".toList),
    ("src".toList, .str []), ("confirm_aggressive".toList, .bool false),
    ("params".toList, .dict [("path".toList, .str "/ ".toList), ("port".toList, .str [])]),
    ("request_id".toList, .str "retry-0001".toList)]

theorem same_retry : SameRequest firstBody retryBody where
  workload := rfl
  target := .inr ⟨" lab.example ".toList, "lab.example".toList, rfl, rfl, by decide⟩
  src := .inl rfl
  requestId := rfl
  params := by
    have hhttp : workloads.all (fun spec => spec.name = "http".toList →
        spec.params = [intParam "port" 80, strParam "path" "/"]) = true := by decide
    intro spec hspec hname param hparam
    have hname : "http".toList = spec.name := by
      injection Option.some.inj hname
    rw [of_decide_eq_true (List.all_eq_true.mp hhttp spec hspec) hname.symm] at hparam
    simp only [List.mem_cons, List.not_mem_nil, or_false] at hparam
    rcases hparam with rfl | rfl
    · exact .inr ⟨.int 80, .spelled (s := "0080".toList) (by decide), .empty (.int 80)⟩
    · have hstrip : strip "/ ".toList = "/".toList := by decide
      have htext : Stands (.str "/".toList none) (some (.str "/ ".toList)) (.str "/".toList) :=
        hstrip ▸ .text (by decide)
      exact .inr ⟨.str "/".toList, .omitted (.str "/".toList none), htext⟩

theorem validateRequest_normal_retry : ∃ req, validateRequest (.dict firstBody) = .ok req ∧
    validateRequest (.dict retryBody) = .ok req := by
  have hfirst := eq_ok_get (x := validateRequest (.dict firstBody)) (by decide)
  have hretry := eq_ok_get (x := validateRequest (.dict retryBody)) (by decide)
  have hsame := validateRequest_normal.2.2 _ _ _ _ hfirst hretry same_retry
  exact ⟨_, hfirst, hretry.trans (congrArg Except.ok hsame.symm)⟩

end SrxProbe.Dashboard
