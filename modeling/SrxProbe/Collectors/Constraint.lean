import SrxProbe.Collectors.Syslog
import SrxProbe.Lib.IpAddress

/-!
# What a log line says constrains what it matches

A value that a line supplies for a component of the 5-tuple decides whether the event
matches a stimulus that is concrete there. Addresses and protocols are compared as they
stand; a port that is no number is dropped, and the event then matches every port.
-/

namespace SrxProbe.Collectors

open SrxProbe.Lib SrxProbe.Validation

/-! ## Supplied values -/

/-- The value of a field, if it is a nonempty string. -/
def supplied (ev : TelemetryEvent) (name : PyStr) : Option PyStr :=
  match ev.fields.get? name with
  | some (.str (c :: rest)) => some (c :: rest)
  | _ => none

/-- The value the parser selects among some field names. -/
def selected (ev : TelemetryEvent) (names : List PyStr) : Option PyStr :=
  names.findSome? (supplied ev)

/-- The line supplies a nonempty value under one of some field names. -/
def Supplies (ev : TelemetryEvent) (names : List PyStr) : Prop :=
  ∃ name ∈ names, ∃ value, value ≠ [] ∧ ev.fields.get? name = some (.str value)

theorem supplied_of_get? {ev : TelemetryEvent} {name value : PyStr} (hne : value ≠ [])
    (h : ev.fields.get? name = some (.str value)) : supplied ev name = some value := by
  unfold supplied
  rw [h]
  cases value with
  | nil => exact absurd rfl hne
  | cons c rest => rfl

theorem get?_of_supplied {ev : TelemetryEvent} {name value : PyStr}
    (h : supplied ev name = some value) :
    value ≠ [] ∧ ev.fields.get? name = some (.str value) := by
  unfold supplied at h
  split at h
  · rename_i c rest hget
    cases h
    exact ⟨List.cons_ne_nil c rest, hget⟩
  · cases h

theorem supplies_iff {ev : TelemetryEvent} {names : List PyStr} :
    Supplies ev names ↔ (selected ev names).isSome = true := by
  unfold selected
  rw [List.findSome?_isSome_iff]
  constructor
  · rintro ⟨name, hname, value, hne, hget⟩
    refine ⟨name, hname, ?_⟩
    rw [supplied_of_get? hne hget]
    rfl
  · rintro ⟨name, hname, hsome⟩
    obtain ⟨value, hvalue⟩ := Option.isSome_iff_exists.mp hsome
    exact ⟨name, hname, value, get?_of_supplied hvalue⟩

/-- The 5-tuple of an event, from the values that its line supplies. -/
theorem fiveTuple_of_parse {p : Platform} {now : Timestamp} {line : PyStr}
    {recvTime : Option Timestamp} {ev : TelemetryEvent}
    (h : parseSyslogLine p now line recvTime = some ev) :
    ev.fiveTuple =
      { srcIp := selected ev srcIpKeys
        dstIp := selected ev dstIpKeys
        protocol := (selected ev protoKeys).map fun raw => (protoNum.lookup raw).getD (p.upper raw)
        srcPort := toInt (selected ev srcPortKeys)
        dstPort := toInt (selected ev dstPortKeys) } := by
  obtain ⟨fieldText, -, hfields, htuple⟩ := exists_lineText h
  have hfirst : ∀ keys, first (fieldsOf fieldText) keys = selected ev keys := by
    intro keys
    unfold first selected
    congr 1
    funext name
    rw [supplied, hfields, Dict.get?_mapValues]
    cases (fieldsOf fieldText).get? name with
    | none => rfl
    | some value => cases value <;> rfl
  rw [htuple, fiveTupleOf]
  simp only [hfirst]

/-! ## Denotation -/

/-- The name that the value of a protocol field stands for: the one of the numeric
table, or the value in capitals. -/
def protocolName (p : Platform) (raw : PyStr) : PyStr := (protoNum.lookup raw).getD (p.upper raw)

/-- The values that a line supplies denote those of a stimulus, wherever it is concrete:
the same address, the same number for a port, the same name up to case for a protocol. -/
structure Constrained (p : Platform) (stimulus : FiveTuple) (ev : TelemetryEvent) : Prop where
  srcIp : ∀ a, stimulus.srcIp = some a → Supplies ev srcIpKeys → selected ev srcIpKeys = some a
  dstIp : ∀ a, stimulus.dstIp = some a → Supplies ev dstIpKeys → selected ev dstIpKeys = some a
  protocol : ∀ name, stimulus.protocol = some name → Supplies ev protoKeys →
    ∃ raw, selected ev protoKeys = some raw ∧ p.upper (protocolName p raw) = p.upper name
  srcPort : ∀ n, stimulus.srcPort = some n → Supplies ev srcPortKeys →
    ∃ raw, selected ev srcPortKeys = some raw ∧ parseInt raw = some n
  dstPort : ∀ n, stimulus.dstPort = some n → Supplies ev dstPortKeys →
    ∃ raw, selected ev dstPortKeys = some raw ∧ parseInt raw = some n

/-- Where a stimulus has a concrete port and the line supplies a value for it, the value
is a number. -/
structure NumericPorts (stimulus : FiveTuple) (ev : TelemetryEvent) : Prop where
  srcPort : stimulus.srcPort.isSome = true → ∀ raw ∈ selected ev srcPortKeys,
    (parseInt raw).isSome = true
  dstPort : stimulus.dstPort.isSome = true → ∀ raw ∈ selected ev dstPortKeys,
    (parseInt raw).isSome = true

theorem eq_of_valueCompatible {α : Type} [DecidableEq α] {a b : α}
    (h : valueCompatible (some a) (some b) = true) : a = b := of_decide_eq_true h

theorem selected_address {names : List PyStr} {ev : TelemetryEvent} {address : Option PyStr}
    (h : valueCompatible address (selected ev names) = true) :
    ∀ a, address = some a → Supplies ev names → selected ev names = some a := by
  rintro a rfl hsupplies
  obtain ⟨raw, hraw⟩ := Option.isSome_iff_exists.mp (supplies_iff.mp hsupplies)
  rw [hraw] at h ⊢
  rw [eq_of_valueCompatible h]

/-- A port constrains the match exactly when the value of its field is a number. -/
theorem selected_port {names : List PyStr} {ev : TelemetryEvent} {port : Option Int}
    (h : valueCompatible port (toInt (selected ev names)) = true) :
    (∀ n, port = some n → Supplies ev names →
      ∃ raw, selected ev names = some raw ∧ parseInt raw = some n) ↔
    (port.isSome = true → ∀ raw ∈ selected ev names, (parseInt raw).isSome = true) := by
  constructor
  · intro hdenotes hport raw hraw
    obtain ⟨n, hn⟩ := Option.isSome_iff_exists.mp hport
    have hraw : selected ev names = some raw := hraw
    have hsupplies : Supplies ev names := supplies_iff.mpr (by rw [hraw]; rfl)
    obtain ⟨raw', hraw', hparse⟩ := hdenotes n hn hsupplies
    rw [hraw] at hraw'
    cases hraw'
    rw [hparse]
    rfl
  · rintro hnumber n rfl hsupplies
    obtain ⟨raw, hraw⟩ := Option.isSome_iff_exists.mp (supplies_iff.mp hsupplies)
    obtain ⟨m, hm⟩ := Option.isSome_iff_exists.mp (hnumber rfl raw hraw)
    refine ⟨raw, hraw, ?_⟩
    have hint : toInt (selected ev names) = some m := by
      rw [hraw]
      exact hm
    rw [hint] at h
    rw [hm, eq_of_valueCompatible h]

/-! ## The matching event -/

/-- **The values of a matching event denote those of the stimulus exactly when its ports
are numbers.** -/
theorem constrained_iff {p : Platform} {now : Timestamp} {line : PyStr}
    {recvTime : Option Timestamp} {ev : TelemetryEvent} {stimulus : FiveTuple}
    (hparse : parseSyslogLine p now line recvTime = some ev)
    (hmatch : observationMatches p stimulus ev.fiveTuple = true) :
    Constrained p stimulus ev ↔ NumericPorts stimulus ev := by
  have htuple : fiveTupleMatches p stimulus ev.fiveTuple = true := by
    unfold observationMatches at hmatch
    dsimp only at hmatch
    split at hmatch
    · cases hmatch
    · split at hmatch
      · exact hmatch
      · cases hmatch
  rw [fiveTuple_of_parse hparse] at htuple
  unfold fiveTupleMatches FiveTuple.normalized at htuple
  simp only [Bool.and_eq_true] at htuple
  obtain ⟨⟨⟨⟨hsrcIp, hdstIp⟩, hprotocol⟩, hsrcPort⟩, hdstPort⟩ := htuple
  have hname : ∀ name, stimulus.protocol = some name → Supplies ev protoKeys →
      ∃ raw, selected ev protoKeys = some raw ∧
        p.upper (protocolName p raw) = p.upper name := by
    intro name hconcrete hsupplies
    obtain ⟨raw, hraw⟩ := Option.isSome_iff_exists.mp (supplies_iff.mp hsupplies)
    refine ⟨raw, hraw, ?_⟩
    rw [hconcrete, hraw] at hprotocol
    exact (eq_of_valueCompatible hprotocol).symm
  constructor
  · intro h
    exact ⟨(selected_port hsrcPort).mp h.srcPort, (selected_port hdstPort).mp h.dstPort⟩
  · intro h
    exact ⟨selected_address hsrcIp, selected_address hdstIp, hname,
      (selected_port hsrcPort).mpr h.srcPort, (selected_port hdstPort).mpr h.dstPort⟩

/-- A platform with the capitals of ASCII. -/
def asciiPlatform : Platform :=
  ⟨fun q => q, fun s => s.map Char.toUpper, fun s => (ipAddress s).isSome⟩

/-- The record of a session, with this text as its source port. -/
def sessionLine (port : String) : PyStr :=
  ("<14>1 2024-05-01T12:00:00Z srx RT_FLOW - RT_FLOW_SESSION_CREATE [junos@2636 " ++
    "source-address=\"198.51.100.5\" source-port=\"").toList ++ port.toList ++
    "\" protocol-id=\"6\"]".toList

/-- A stimulus that is concrete in its source and its protocol. -/
def sessionStimulus : FiveTuple :=
  ⟨some "198.51.100.5".toList, none, some "tcp".toList, some 44321, none⟩

/-- What the examples look at of the event of a line. -/
def observed (port : String) : Option (Option PyStr × Bool) :=
  (parseSyslogLine asciiPlatform .nonfinite (sessionLine port) none).map fun ev =>
    (selected ev srcPortKeys, observationMatches asciiPlatform sessionStimulus ev.fiveTuple)

theorem constrained_iff_session :
    ∃ ev, parseSyslogLine asciiPlatform .nonfinite (sessionLine "44321") none = some ev ∧
      observationMatches asciiPlatform sessionStimulus ev.fiveTuple = true ∧
      (Constrained asciiPlatform sessionStimulus ev ↔ NumericPorts sessionStimulus ev) := by
  have hobserved : observed "44321" = some (some "44321".toList, true) := by decide +kernel
  obtain ⟨ev, hparse, hpair⟩ := Option.map_eq_some_iff.mp hobserved
  have hmatch := congrArg Prod.snd hpair
  exact ⟨ev, hparse, hmatch, constrained_iff hparse hmatch⟩

/-- A source port that is no number matches the stimulus, whose port it does not
denote. -/
theorem malformed_port_matches :
    ∃ ev, parseSyslogLine asciiPlatform .nonfinite (sessionLine "http") none = some ev ∧
      observationMatches asciiPlatform sessionStimulus ev.fiveTuple = true ∧
      Supplies ev srcPortKeys ∧ ¬ Constrained asciiPlatform sessionStimulus ev := by
  have hobserved : observed "http" = some (some "http".toList, true) := by decide +kernel
  obtain ⟨ev, hparse, hpair⟩ := Option.map_eq_some_iff.mp hobserved
  have hselected : selected ev srcPortKeys = some "http".toList := congrArg Prod.fst hpair
  have hsupplies : Supplies ev srcPortKeys := supplies_iff.mpr (by rw [hselected]; rfl)
  refine ⟨ev, hparse, congrArg Prod.snd hpair, hsupplies, ?_⟩
  intro h
  obtain ⟨raw, hraw, hnumber⟩ := h.srcPort 44321 rfl hsupplies
  rw [hselected] at hraw
  cases hraw
  have hnone : parseInt "http".toList = none := by decide
  rw [hnone] at hnumber
  cases hnumber

end SrxProbe.Collectors
