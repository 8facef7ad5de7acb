import SrxProbe.Dashboard.RequestSpec
import SrxProbe.Lib.Dns
import SrxProbe.Lib.IpText

/-!
# DNS queries

The packet that a DNS workload sends for a name. A name that is admitted can end with a dot,
have two dots in a row or a label that is too long for its octet: then the packet is no
query for it.
-/

namespace SrxProbe.Generators

open SrxProbe.Lib SrxProbe.Dashboard

/-! ## The packet -/

/-- `bytes([n])`. -/
def byteOf (n : Nat) : Except PyErr Bytes :=
  if n < 256 then .ok [UInt8.ofNat n] else .error .stdValueError

/-- The packet of `_raw_dns`. -/
def dnsPacket (qname : PyStr) : Except PyErr Bytes := do
  let txn : Bytes := [0xab, 0xcd]
  let header := txn ++ [0x01, 0x00, 0x00, 0x01, 0x00, 0x00, 0x00, 0x00, 0x00, 0x00]
  let question ← (qname.splitOn '.').foldlM (fun question label => do
    return question ++ (← byteOf label.length) ++ encodeUtf8 label) []
  -- type A, class IN
  return header ++ (question ++ [0x00, 0x00, 0x01, 0x00, 0x01])

/-! ## What it has to be -/

/-- The labels of a name. A dot at the end stands for the root. -/
def nameLabels (qname : PyStr) : List PyStr :=
  if qname.getLast? = some '.' then qname.dropLast.splitOn '.' else qname.splitOn '.'

/-- The packet is a recursive query for the addresses of the name, and nothing else. -/
def Queries (packet : Bytes) (qname : PyStr) : Prop :=
  Dns.readQuery packet =
    some ⟨⟨0xabcd, 0x0100, 1, 0, 0, 0⟩, (nameLabels qname).map encodeUtf8, 1, 1⟩

instance (packet : Bytes) (qname : PyStr) : Decidable (Queries packet qname) :=
  inferInstanceAs (Decidable (_ = _))

/-- A label that fits its length octet. -/
def FitsOctet (label : PyStr) : Prop := 1 ≤ label.length ∧ label.length ≤ 63

/-- A name as the dashboard admits it. -/
structure AdmittedName (qname : PyStr) : Prop where
  pattern : isQname qname = true
  short : qname.length ≤ 253

section name

variable {qname label : PyStr} {c : Char}

theorem isAscii_of_isAlnum (h : isAlnum c = true) : c.toNat < 128 := by
  simp only [isAlnum, isAlpha, inRange, Bool.or_eq_true, Bool.and_eq_true, decide_eq_true_eq] at h
  rcases h with (h | h) | h
  · exact h.2.trans_lt (by decide)
  · exact h.2.trans_lt (by decide)
  · exact h.2.trans_lt (by decide)

theorem AdmittedName.isAscii (h : AdmittedName qname) (hc : c ∈ qname) : c.toNat < 128 := by
  obtain ⟨hhead, htail⟩ := Bool.and_eq_true_iff.mp h.pattern
  cases qname with
  | nil => cases hc
  | cons d rest =>
      have hd : (isAlnum d || d = '_') = true := hhead
      rcases List.mem_cons.mp hc with rfl | hc
      · simp only [Bool.or_eq_true, decide_eq_true_eq] at hd
        rcases hd with hd | rfl
        · exact isAscii_of_isAlnum hd
        · decide
      · have hrest := List.all_eq_true.mp htail c hc
        simp only [Bool.or_eq_true, decide_eq_true_eq] at hrest
        rcases hrest with ((hrest | rfl) | rfl) | rfl
        · exact isAscii_of_isAlnum hrest
        · decide
        · decide
        · decide

/-- An ASCII text has as many bytes as characters. -/
theorem length_encodeUtf8 (h : ∀ c ∈ label, c.toNat < 128) :
    (encodeUtf8 label).length = label.length := by
  induction label with
  | nil => rfl
  | cons c label ih =>
      obtain ⟨hc, hlabel⟩ := List.forall_mem_cons.mp h
      have hval : c.val.toNat < 128 := hc
      have hone : c.utf8Size = 1 := Char.utf8Size_eq_one_iff.mpr
        (UInt32.le_iff_toNat_le.mpr (Nat.le_of_lt_succ hval))
      have hlater := ih hlabel
      unfold encodeUtf8 at hlater ⊢
      rw [List.flatMap_cons, List.length_append, String.length_utf8EncodeChar, hone, hlater,
        List.length_cons]
      omega

/-- A part of a text between separators. -/
theorem sublist_of_mem_splitOn (h : label ∈ qname.splitOn c) : label.Sublist qname := by
  have hparts : ∀ parts : List PyStr, label ∈ parts → label.Sublist ([c].intercalate parts) := by
    intro parts hmem
    induction parts with
    | nil => cases hmem
    | cons part parts ih =>
        cases parts with
        | nil =>
            rw [List.intercalate_singleton, List.mem_singleton.mp hmem]
        | cons next parts =>
            rw [List.intercalate_cons_of_ne_nil (List.cons_ne_nil next parts)]
            rcases List.mem_cons.mp hmem with rfl | hmem
            · rw [List.append_assoc]
              exact List.sublist_append_left _ _
            · exact (ih hmem).trans (List.sublist_append_right _ _)
  have hsub := hparts _ h
  rwa [List.intercalate_splitOn] at hsub

theorem AdmittedName.length_encode (h : AdmittedName qname) (hlabel : label ∈ qname.splitOn '.') :
    (encodeUtf8 label).length = label.length :=
  length_encodeUtf8 fun _ hc => h.isAscii ((sublist_of_mem_splitOn hlabel).subset hc)

theorem byteOf_ok {n : Nat} (h : n < 256) : byteOf n = .ok [UInt8.ofNat n] := if_pos h

/-- The labels, each after its length octet. -/
theorem foldlM_labels {labels : List PyStr} (hshort : ∀ label ∈ labels, label.length < 256)
    (hbytes : ∀ label ∈ labels, (encodeUtf8 label).length = label.length) (question : Bytes) :
    labels.foldlM (fun question label => do
      return question ++ (← byteOf label.length) ++ encodeUtf8 label) question =
      (.ok (question ++ Dns.encodeLabels (labels.map encodeUtf8)) : Except PyErr Bytes) := by
  induction labels generalizing question with
  | nil =>
      rw [List.map_nil, Dns.encodeLabels_nil, List.append_nil]
      rfl
  | cons label labels ih =>
      obtain ⟨hlen, hshort⟩ := List.forall_mem_cons.mp hshort
      obtain ⟨heq, hbytes⟩ := List.forall_mem_cons.mp hbytes
      rw [List.foldlM_cons, byteOf_ok hlen]
      show List.foldlM _ (question ++ [UInt8.ofNat label.length] ++ encodeUtf8 label) labels = _
      rw [ih hshort hbytes, List.map_cons, Dns.encodeLabels_cons, heq, List.append_assoc,
        List.append_assoc]
      rfl

/-- The packet of an admitted name. -/
theorem dnsPacket_eq (h : AdmittedName qname) : dnsPacket qname =
    .ok ([0xab, 0xcd, 0x01, 0x00, 0x00, 0x01, 0x00, 0x00, 0x00, 0x00, 0x00, 0x00] ++
      (Dns.encodeLabels ((qname.splitOn '.').map encodeUtf8) ++
        0x00 :: [0x00, 0x01, 0x00, 0x01])) := by
  have hfold := foldlM_labels
    (fun label hlabel => ((sublist_of_mem_splitOn hlabel).length_le.trans h.short).trans_lt
      (by decide)) (fun label hlabel => h.length_encode hlabel) []
  rw [dnsPacket, hfold]
  rfl

theorem nameLabels_of_dot (name : PyStr) : nameLabels (name ++ ['.']) = name.splitOn '.' := by
  rw [nameLabels, if_pos (by simp), List.dropLast_concat]

theorem splitOn_of_dot (name : PyStr) :
    (name ++ ['.']).splitOn '.' = name.splitOn '.' ++ [[]] := by
  rw [List.splitOn_append_cons_self, List.splitOn_nil]

/-- An admitted name is queried for if its labels fit. -/
theorem queries_iff (h : AdmittedName qname) {packet : Bytes}
    (hpacket : dnsPacket qname = .ok packet) :
    Queries packet qname ↔ ∀ label ∈ qname.splitOn '.', FitsOctet label := by
  rw [dnsPacket_eq h, Except.ok.injEq] at hpacket
  subst hpacket
  rcases List.eq_nil_or_concat qname with rfl | ⟨name, last, rfl⟩
  · cases h.pattern
  rw [List.concat_eq_append] at *
  by_cases hdot : last = '.'
  · subst hdot
    rw [splitOn_of_dot]
    constructor
    · intro hquery
      -- an octet too many, for the empty label behind the dot
      obtain ⟨⟨header, tail, hheader, htail, hdata⟩, -⟩ := Dns.readQuery_sound hquery
      have hlen := congrArg List.length hdata
      rw [nameLabels_of_dot, List.map_append, Dns.encodeLabels_append] at hlen
      simp [hheader, htail, encodeUtf8] at hlen
      omega
    · intro hfits
      exact absurd (hfits [] (by simp)).1 (by decide)
  · have hlabels : nameLabels (name ++ [last]) = (name ++ [last]).splitOn '.' := by
      rw [nameLabels, if_neg (by simp [hdot])]
    constructor
    · intro hquery label hlabel
      obtain ⟨-, hall⟩ := Dns.readQuery_sound hquery
      rw [hlabels] at hall
      have hfits := hall _ (List.mem_map_of_mem hlabel)
      rw [Dns.IsLabel, h.length_encode hlabel] at hfits
      exact hfits
    · intro hfits
      have hall : ∀ label ∈ ((name ++ [last]).splitOn '.').map encodeUtf8, Dns.IsLabel label := by
        intro bytes hbytes
        obtain ⟨label, hlabel, rfl⟩ := List.mem_map.mp hbytes
        rw [Dns.IsLabel, h.length_encode hlabel]
        exact hfits label hlabel
      rw [Queries, hlabels]
      exact Dns.readQuery_encode (fun _ => rfl) rfl hall

end name

/-! ## Admitted names -/

section admitted

variable {body : PyValue} {req : ValidRequest}

theorem cleanText_qname {workload s : PyStr} {choices : Option (List PyStr)} {value : PyValue}
    (h : cleanText workload "qname".toList choices value = .ok s) : AdmittedName s := by
  obtain ⟨htext, hvalid⟩ := cleanText_ok_iff.mp h
  exact ⟨hvalid.qname rfl, text_ok htext⟩

/-- An admitted DNS workload comes with its name. -/
theorem qname_of_ok (h : validateRequest body = .ok req) (hdns : req.workload = "dns".toList) :
    ∃ qname, req.params = [("qname".toList, .str qname)] ∧ AdmittedName qname := by
  obtain ⟨entries, spec, given, -, haccepts⟩ := validateRequest_ok_iff.mp h
  have hfind := haccepts.mem.2
  rw [← haccepts.workload, hdns] at hfind
  have hentry : spec = ⟨"dns".toList, false, false, [strParam "qname" "probe.lab"]⟩ :=
    (Option.some.inj hfind).symm
  subst hentry
  obtain ⟨entry, rest, hfirst, hrest, hparams⟩ := List.forall₂_cons_left_iff.mp haccepts.params
  rw [List.forall₂_nil_left_iff.mp hrest] at hparams
  obtain ⟨s, hs, h⟩ := bind_ok_iff.mp hfirst
  cases h
  exact ⟨s, hparams, cleanText_qname hs⟩

/-- **DNS queries.** The packet of an admitted name is a query for that name exactly if each
of its labels has from one to 63 characters. -/
theorem dns_query_iff (h : validateRequest body = .ok req) (hdns : req.workload = "dns".toList) :
    ∃ qname packet, req.params.lookup "qname".toList = some (.str qname) ∧
      dnsPacket qname = .ok packet ∧
      (Queries packet qname ↔ ∀ label ∈ qname.splitOn '.', FitsOctet label) := by
  obtain ⟨qname, hparams, hname⟩ := qname_of_ok h hdns
  rw [hparams]
  exact ⟨qname, _, rfl, dnsPacket_eq hname, queries_iff hname (dnsPacket_eq hname)⟩

end admitted

/-- The name of a request, `probe.lab` where it has none. -/
theorem dns_query_default :
    validateRequest (.dict [("workload".toList, .str "dns".toList),
        ("target".toList, .str "192.0.2.53".toList)]) =
      .ok ⟨"dns".toList, "192.0.2.53".toList, [], [("qname".toList, .str "probe.lab".toList)],
        none⟩ ∧
    ∃ packet, dnsPacket "probe.lab".toList = .ok packet ∧ Queries packet "probe.lab".toList := by
  have hok : validateRequest (.dict [("workload".toList, .str "dns".toList),
        ("target".toList, .str "192.0.2.53".toList)]) =
      .ok ⟨"dns".toList, "192.0.2.53".toList, [], [("qname".toList, .str "probe.lab".toList)],
        none⟩ := by
    decide
  obtain ⟨qname, packet, hname, hpacket, hiff⟩ := dns_query_iff hok rfl
  obtain rfl : "probe.lab".toList = qname := by
    have hvalue : (some (.str "probe.lab".toList) : Option ParamValue) = some (.str qname) := hname
    cases hvalue
    rfl
  exact ⟨hok, packet, hpacket, hiff.mpr (by unfold FitsOctet; decide)⟩

/-- A name that ends with a dot has a packet with an octet too many. -/
theorem absolute_name_is_no_query :
    (∃ req, validateRequest (.dict [("workload".toList, .str "dns".toList),
        ("target".toList, .str "192.0.2.53".toList),
        ("params".toList, .dict [("qname".toList, .str "probe.lab.".toList)])]) = .ok req ∧
      req.workload = "dns".toList ∧
      req.params.lookup "qname".toList = some (.str "probe.lab.".toList)) ∧
    ∃ packet, dnsPacket "probe.lab.".toList = .ok packet ∧
      ¬ Queries packet "probe.lab.".toList := by
  refine ⟨⟨⟨"dns".toList, "192.0.2.53".toList, [], [("qname".toList, .str "probe.lab.".toList)],
    none⟩, by decide, rfl, rfl⟩, _, rfl, by decide⟩

end SrxProbe.Generators
