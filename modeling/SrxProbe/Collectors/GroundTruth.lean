import SrxProbe.Collectors.PcapAgree
import SrxProbe.Validation.Selection

/-!
# Ground truth

The loop over the output of `tshark`, with the exceptions of its conversions and the clause
that catches them. Nothing else is raised, each line gives at most one tuple, and a tuple is
concrete: its addresses are IPv4 addresses and its ports are those of TCP or UDP.
-/

namespace SrxProbe.Collectors.Pcap

open SrxProbe.Lib SrxProbe.Validation

/-! ## The loop -/

/-- `ipaddress.IPv4Address(s)`. -/
def ipv4Address (s : PyStr) : Except PyErr Nat := orRaise (IpAddress.parseV4 s) .stdValueError

/-- `int(s)`. -/
def pyInt (s : PyStr) : Except PyErr Int := orRaise (parseInt s) .stdValueError

/-- `int(port) if port else None`. -/
def tryPort (port : PyStr) : Except PyErr (Option Int) :=
  if port = [] then .ok none else (pyInt port).map some

/-- The body of `try` and what follows it, on the stripped columns of a row; `none` where it
continues with the next row. -/
def tryRow (ipSrc ipDst ipProto tsp tdp usp udp : PyStr) : Except PyErr (Option FiveTuple) := do
  let _ ← ipv4Address ipSrc
  let _ ← ipv4Address ipDst
  let proto ← pyInt ipProto
  if ¬ (0 ≤ proto ∧ proto ≤ 255) then return none
  let ipProto := intText proto
  let (sport, dport) :=
    if ipProto = "6".toList then (tsp, tdp)
    else if ipProto = "17".toList then (usp, udp)
    else ([], [])
  let sport ← tryPort sport
  let dport ← tryPort dport
  if !(portInRange sport && portInRange dport) then return none
  return some ⟨some ipSrc, some ipDst, some (protocolOf ipProto), sport, dport⟩

/-- A turn of the loop: `except ValueError: continue`, and `tuples.append`. -/
def addRow (tuples : List FiveTuple) (line : PyStr) : Except PyErr (List FiveTuple) :=
  match (line.splitOn ',').map strip with
  | [ipSrc, ipDst, ipProto, tsp, tdp, usp, udp] =>
      match tryRow ipSrc ipDst ipProto tsp tdp usp udp with
      | .ok tuple => .ok (tuples ++ tuple.toList)
      | .error .stdValueError | .error (.valueError _) => .ok tuples
      | .error e => .error e
  | _ => .ok tuples

/-- The loop of `_extract_with_tshark`, over the output of `tshark`. -/
def tsharkTuples (out : PyStr) : Except PyErr (List FiveTuple) :=
  (splitlines out).foldlM addRow []

section loop

theorem tryPort_eq (port : PyStr) : tryPort port = orRaise (readPort port) .stdValueError := by
  unfold tryPort readPort pyInt
  split
  · rfl
  · cases parseInt port <;> rfl

/-- A row that raises is one that is not read. -/
theorem tryRow_cases (line ipSrc ipDst ipProto tsp tdp usp udp : PyStr)
    (hcols : (line.splitOn ',').map strip = [ipSrc, ipDst, ipProto, tsp, tdp, usp, udp]) :
    tryRow ipSrc ipDst ipProto tsp tdp usp udp = .ok (readRow line) ∨
      tryRow ipSrc ipDst ipProto tsp tdp usp udp = .error .stdValueError ∧ readRow line = none := by
  unfold tryRow readRow
  simp only [hcols, ipv4Address, pyInt, tryPort_eq]
  cases IpAddress.parseV4 ipSrc with
  | none => exact .inr ⟨rfl, rfl⟩
  | some src =>
  cases IpAddress.parseV4 ipDst with
  | none => exact .inr ⟨rfl, rfl⟩
  | some dst =>
  cases parseInt ipProto with
  | none => exact .inr ⟨rfl, rfl⟩
  | some proto =>
  simp only [orRaise_some, ok_bind, Option.bind_eq_bind, Option.bind_some]
  by_cases hproto : 0 ≤ proto ∧ proto ≤ 255
  · rw [if_neg (not_not.mpr hproto), if_neg (not_not.mpr hproto)]
    generalize hports : (if intText proto = "6".toList then (tsp, tdp)
      else if intText proto = "17".toList then (usp, udp) else ([], [])) = ports
    obtain ⟨sport, dport⟩ := ports
    simp only
    cases readPort sport with
    | none => exact .inr ⟨rfl, rfl⟩
    | some sport =>
    cases readPort dport with
    | none => exact .inr ⟨rfl, rfl⟩
    | some dport =>
    refine .inl ?_
    simp only [orRaise_some, ok_bind, Option.bind_some]
    cases portInRange sport && portInRange dport <;> rfl
  · rw [if_pos hproto, if_pos hproto]
    exact .inl rfl

theorem addRow_eq (tuples : List FiveTuple) (line : PyStr) :
    addRow tuples line = .ok (tuples ++ (readRow line).toList) := by
  unfold addRow
  split
  · rename_i ipSrc ipDst ipProto tsp tdp usp udp hcols
    rcases tryRow_cases line ipSrc ipDst ipProto tsp tdp usp udp hcols with htry | ⟨htry, hread⟩
    · rw [htry]
    · rw [htry, hread]
      simp
  · rename_i hcols
    have hread : readRow line = none := by
      unfold readRow
      split
      · rename_i heq
        exact absurd heq (hcols _ _ _ _ _ _ _)
      · rfl
    rw [hread]
    simp

theorem foldlM_addRow (lines : List PyStr) (tuples : List FiveTuple) :
    lines.foldlM addRow tuples = .ok (tuples ++ lines.filterMap readRow) := by
  induction lines generalizing tuples with
  | nil => exact congrArg Except.ok (List.append_nil tuples).symm
  | cons line lines ih =>
      rw [List.foldlM_cons, addRow_eq, ok_bind, ih, List.append_assoc]
      cases hread : readRow line with
      | none => rw [List.filterMap_cons_none hread, Option.toList_none, List.nil_append]
      | some t => rw [List.filterMap_cons_some hread, Option.toList_some, List.singleton_append]

/-- The loop raises nothing, and reads each line by itself. -/
theorem tsharkTuples_eq (out : PyStr) : tsharkTuples out = .ok (extractWithTshark out) := by
  rw [tsharkTuples, foldlM_addRow, List.nil_append, extractWithTshark]

end loop

/-! ## The tuples -/

/-- The column that a port is taken from. -/
def portColumn (proto : Int) (tcp udp : PyStr) : PyStr :=
  if proto = 6 then tcp else if proto = 17 then udp else []

/-- A tuple has what stands in the columns of its row, a protocol of one byte. -/
def FromRow (line : PyStr) (t : FiveTuple) : Prop :=
  ∃ ipSrc ipDst ipProto tsp tdp usp udp proto,
    (line.splitOn ',').map strip = [ipSrc, ipDst, ipProto, tsp, tdp, usp, udp] ∧
    t.srcIp = some ipSrc ∧ t.dstIp = some ipDst ∧
    parseInt ipProto = some proto ∧ (0 ≤ proto ∧ proto ≤ 255) ∧ t.protocol = some (protocolOf (intText proto)) ∧
    readPort (portColumn proto tsp usp) = some t.srcPort ∧
    readPort (portColumn proto tdp udp) = some t.dstPort

/-- The addresses are IPv4 addresses, the protocol is a number of one byte, and only TCP and
UDP have ports. -/
structure Concrete (t : FiveTuple) : Prop where
  srcIp : ∃ s ip, t.srcIp = some s ∧ IpAddress.parseV4 s = some ip
  dstIp : ∃ s ip, t.dstIp = some s ∧ IpAddress.parseV4 s = some ip
  protocol : ∃ n : Nat, n ≤ 255 ∧ t.protocol = some (protocolOf (intText n))
  srcPort : ∀ port ∈ t.srcPort, 0 ≤ port ∧ port ≤ 65535
  dstPort : ∀ port ∈ t.dstPort, 0 ≤ port ∧ port ≤ 65535
  portless : t.protocol ≠ some "TCP".toList → t.protocol ≠ some "UDP".toList →
    t.srcPort = none ∧ t.dstPort = none

section tuples

variable {line : PyStr} {t : FiveTuple}

theorem portInRange_iff {port : Option Int} :
    portInRange port = true ↔ ∀ n ∈ port, 0 ≤ n ∧ n ≤ 65535 := by
  cases port <;> simp [portInRange]

/-- The choice of the columns, by the number of the protocol. -/
theorem portColumns_eq {proto : Int} (h : 0 ≤ proto ∧ proto ≤ 255) (tsp tdp usp udp : PyStr) :
    (if intText proto = "6".toList then (tsp, tdp)
      else if intText proto = "17".toList then (usp, udp) else ([], [])) =
      (portColumn proto tsp usp, portColumn proto tdp udp) := by
  obtain ⟨n, rfl⟩ := Int.eq_ofNat_of_zero_le h.1
  have htcp : intText n = "6".toList ↔ (n : Int) = 6 := by
    refine ⟨fun heq => ?_, fun heq => by rw [heq]; rfl⟩
    exact congrArg Nat.cast (intText_injective heq)
  have hudp : intText n = "17".toList ↔ (n : Int) = 17 := by
    refine ⟨fun heq => ?_, fun heq => by rw [heq]; rfl⟩
    exact congrArg Nat.cast (intText_injective heq)
  unfold portColumn
  simp only [htcp, hudp]
  split
  · rfl
  · split <;> rfl

/-- What is known of a row that is read. -/
theorem readRow_some (h : readRow line = some t) : FromRow line t ∧ Concrete t := by
  unfold readRow at h
  split at h
  · rename_i ipSrc ipDst ipProto tsp tdp usp udp hcols
    obtain ⟨src, hsrc, h⟩ := Option.bind_eq_some_iff.mp h
    obtain ⟨dst, hdst, h⟩ := Option.bind_eq_some_iff.mp h
    obtain ⟨proto, hproto, h⟩ := Option.bind_eq_some_iff.mp h
    by_cases hbyte : 0 ≤ proto ∧ proto ≤ 255
    · rw [if_neg (not_not.mpr hbyte)] at h
      simp only [portColumns_eq hbyte] at h
      obtain ⟨sport, hsport, h⟩ := Option.bind_eq_some_iff.mp h
      obtain ⟨dport, hdport, h⟩ := Option.bind_eq_some_iff.mp h
      split at h
      · rename_i hrange
        cases h
        obtain ⟨hsrange, hdrange⟩ := Bool.and_eq_true_iff.mp hrange
        refine ⟨⟨ipSrc, ipDst, ipProto, tsp, tdp, usp, udp, proto, hcols, rfl, rfl, hproto, hbyte,
          rfl, hsport, hdport⟩, ⟨ipSrc, src, rfl, hsrc⟩, ⟨ipDst, dst, rfl, hdst⟩,
          ⟨proto.toNat, by omega, ?_⟩, portInRange_iff.mp hsrange, portInRange_iff.mp hdrange, ?_⟩
        · rw [Int.toNat_of_nonneg hbyte.1]
        · intro htcp hudp
          have hnone : ∀ tcp udp, portColumn proto tcp udp = [] := by
            intro tcp udp
            unfold portColumn
            rw [if_neg, if_neg]
            · rintro rfl
              exact hudp rfl
            · rintro rfl
              exact htcp rfl
          rw [hnone] at hsport hdport
          exact ⟨(Option.some.inj hsport).symm, (Option.some.inj hdport).symm⟩
      · cases h
    · rw [if_pos hbyte] at h
      cases h
  · cases h

/-- A row with the columns of a concrete tuple gives this tuple. -/
theorem readRow_of (hrow : FromRow line t) (hconcrete : Concrete t) : readRow line = some t := by
  obtain ⟨srcIp, dstIp, protocol, srcPort, dstPort⟩ := t
  obtain ⟨ipSrc, ipDst, ipProto, tsp, tdp, usp, udp, proto, hcols, rfl, rfl, hproto, hbyte, rfl,
    hsport, hdport⟩ := hrow
  obtain ⟨_, src, hipSrc, hsrc⟩ := hconcrete.srcIp
  obtain ⟨_, dst, hipDst, hdst⟩ := hconcrete.dstIp
  cases hipSrc
  cases hipDst
  have hrange : (portInRange srcPort && portInRange dstPort) = true :=
    Bool.and_eq_true_iff.mpr ⟨portInRange_iff.mpr hconcrete.srcPort,
      portInRange_iff.mpr hconcrete.dstPort⟩
  unfold readRow
  simp only [hcols, hsrc, hdst, hproto, portColumns_eq hbyte, hsport, hdport,
    Option.bind_eq_bind, Option.bind_some]
  rw [if_neg (not_not.mpr hbyte), if_pos hrange]

/-- What is read of an IPv4 address is an address. -/
theorem isSome_ipAddress {s : PyStr} {ip : Nat} (h : IpAddress.parseV4 s = some ip) :
    (ipAddress s).isSome = true := by
  rw [ipAddress, h]
  rfl

/-- A concrete tuple matches a stimulus of wildcards. -/
theorem Concrete.matches (h : Concrete t) (round : Rat → Rat) (upper : PyStr → PyStr) :
    observationMatches ⟨round, upper, fun s => (ipAddress s).isSome⟩
      ⟨none, none, none, none, none⟩ t = true := by
  obtain ⟨src, ip, hsrc, hip⟩ := h.srcIp
  obtain ⟨dst, ip', hdst, hip'⟩ := h.dstIp
  unfold observationMatches
  simp [hsrc, hdst, isSome_ipAddress hip, isSome_ipAddress hip', fiveTupleMatches,
    FiveTuple.normalized, valueCompatible]

end tuples

/-- **Ground truth is concrete and row-local.** For every output of `tshark` the extraction
raises nothing and gives the tuples of its lines in order. A line gives a tuple if and only if
its seven columns are those of a concrete one, and every tuple is an observation with
addresses. -/
theorem ground_truth_concrete :
    (∀ out, tsharkTuples out = .ok ((splitlines out).filterMap readRow)) ∧
      ∀ line t, (readRow line = some t ↔ FromRow line t ∧ Concrete t) ∧
        (readRow line = some t → ∀ round upper,
          observationMatches ⟨round, upper, fun s => (ipAddress s).isSome⟩
            ⟨none, none, none, none, none⟩ t = true) := by
  refine ⟨tsharkTuples_eq, fun line t => ⟨⟨readRow_some, fun h => readRow_of h.1 h.2⟩, fun h => ?_⟩⟩
  exact (readRow_some h).2.matches

end SrxProbe.Collectors.Pcap
