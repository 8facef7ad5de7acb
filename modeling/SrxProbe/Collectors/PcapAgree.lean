import SrxProbe.Collectors.Pcap
import SrxProbe.Lib.IpText

/-!
# When the two readers agree

Both readers give one tuple for each packet, with the addresses of its first IP layer.
`tshark` takes the ports of the protocol that this layer names, `scapy` those of any TCP
or UDP layer in the packet, so they differ on tunnels and where a quoted header comes in.
-/

namespace SrxProbe.Collectors.Pcap

open SrxProbe.Lib SrxProbe.Validation

/-! ## Columns -/

theorem intText_natCast (n : Nat) : intText n = Nat.toDigits 10 n := by
  unfold intText
  rw [if_neg (by omega), Int.natAbs_natCast]

theorem parseInt_small {n : Nat} (h : n < 65536) : parseInt (intText n) = some (n : Int) := by
  have hlen : (Nat.toDigits 10 n).length ≤ 5 := length_toDigits_of_lt (by omega) (by decide)
  apply parseInt_intText
  rw [Int.natAbs_natCast]
  exact hlen.trans (by decide)

theorem intText_injective {n m : Nat} (h : intText n = intText m) : n = m := by
  rw [intText_natCast, intText_natCast] at h
  have hread := congrArg (Nat.ofDigitChars 10 · 0) h
  simpa using hread

/-- The characters of a column. -/
def isColumnChar (c : Char) : Bool := IpAddress.isAsciiDigit c || c = '.'

theorem isColumnChar_intText {n : Nat} {c : Char} (h : c ∈ intText n) :
    isColumnChar c = true := by
  rw [intText_natCast] at h
  unfold isColumnChar
  rw [IpAddress.isAsciiDigit_of_mem_toDigits h]
  rfl

theorem isColumnChar_addressText {ip : UInt32} {c : Char} (h : c ∈ addressText ip) :
    isColumnChar c = true := by
  obtain ⟨d, rest, htext, hd, hrest, -⟩ := IpAddress.str_v4_eq_cons ip.toNat
  unfold addressText at h
  rw [htext] at h
  unfold isColumnChar
  rcases List.mem_cons.mp h with rfl | h
  · rw [hd]
    rfl
  · rcases hrest c h with rfl | hc
    · simp
    · rw [hc]
      rfl

theorem column_of_mem_tsharkFields {pkt : Packet} {field : PyStr} (h : field ∈ tsharkFields pkt) :
    ∀ c ∈ field, isColumnChar c = true := by
  have helim : ∀ {α : Type} (o : Option α) (text : α → PyStr),
      (∀ a, ∀ c ∈ text a, isColumnChar c = true) → ∀ c ∈ o.elim [] text, isColumnChar c = true := by
    intro α o text htext c hc
    cases o with
    | none => cases hc
    | some a => exact htext a c hc
  unfold tsharkFields at h
  simp only [List.mem_cons, List.not_mem_nil, or_false] at h
  rcases h with rfl | rfl | rfl | rfl | rfl | rfl | rfl
  · exact helim _ _ fun ip c => isColumnChar_addressText
  · exact helim _ _ fun ip c => isColumnChar_addressText
  all_goals exact helim _ _ fun _ c => isColumnChar_intText

theorem plain_of_isColumnChar {c : Char} (h : isColumnChar c = true) :
    c ≠ ',' ∧ isSpace c = false := by
  unfold isColumnChar IpAddress.isAsciiDigit inRange at h
  rw [Bool.or_eq_true] at h
  rcases h with h | h
  · simp only [Bool.and_eq_true, decide_eq_true_eq] at h
    obtain ⟨hlo, hhi⟩ := h
    have hlo : 48 ≤ c.toNat := hlo
    have hhi : c.toNat ≤ 57 := hhi
    refine ⟨?_, ?_⟩
    · rintro rfl
      exact absurd hlo (by decide)
    · unfold isSpace
      simp only [Bool.or_eq_false_iff, Bool.and_eq_false_iff, decide_eq_false_iff_not]
      omega
  · rw [of_decide_eq_true h]
    decide

/-- A row is taken apart into its columns. -/
theorem columns_of_row (pkt : Packet) :
    (([','].intercalate (tsharkFields pkt)).splitOn ',').map strip = tsharkFields pkt := by
  have hsplit : ([','].intercalate (tsharkFields pkt)).splitOn ',' = tsharkFields pkt := by
    refine List.splitOn_intercalate ',' ?_ (List.cons_ne_nil _ _)
    intro field hfield hc
    exact (plain_of_isColumnChar (column_of_mem_tsharkFields hfield _ hc)).1 rfl
  rw [hsplit]
  refine (List.map_congr_left ?_).trans (List.map_id _)
  intro field hfield
  exact trim_of_solid fun c hc =>
    (plain_of_isColumnChar (column_of_mem_tsharkFields hfield c hc)).2

/-! ## One tuple for each packet -/

/-- What reads IP headers only finds the first one in front of all others. -/
theorem first_of_isIp {α : Type} {get : Layer → Option α} (pkt : Packet)
    (hget : ∀ layer : Layer, layer.isIp = false → get layer = none) {a : α}
    (hip : get (.ipv4 pkt.ip false) = some a) : pkt.first get = some a := by
  have hbelow : pkt.below.findSome? get = none :=
    List.findSome?_eq_none_iff.mpr fun layer hlayer => hget layer (pkt.noIpBelow layer hlayer)
  unfold Packet.first Packet.layers
  rw [List.findSome?_append, hbelow, Option.none_or, List.findSome?_cons, hip]

theorem first_ipv4 (pkt : Packet) : pkt.first Layer.ipv4? = some pkt.ip := by
  refine first_of_isIp pkt ?_ rfl
  intro layer hip
  cases layer <;> first | rfl | cases hip

theorem first_exactIpv4 (pkt : Packet) : pkt.first Layer.exactIpv4? = some pkt.ip := by
  refine first_of_isIp pkt ?_ rfl
  intro layer hip
  cases layer <;> first | rfl | cases hip

/-- The header that `tshark` takes the ports from. -/
def tsharkPorts (pkt : Packet) : Option Ports :=
  if pkt.ip.proto = 6 then pkt.first Layer.tcp?
  else if pkt.ip.proto = 17 then pkt.first Layer.udp?
  else none

theorem readPort_text (ports : Option Ports) (read : Ports → UInt16) :
    readPort (ports.elim [] fun ports => portText (read ports)) =
      some (ports.map fun ports => ((read ports).toNat : Int)) := by
  cases ports with
  | none => rfl
  | some ports =>
      have hne : portText (read ports) ≠ [] := by
        unfold portText
        rw [intText_natCast]
        exact Nat.toDigits_ne_nil
      show readPort (portText (read ports)) = _
      unfold readPort
      rw [if_neg hne, portText, parseInt_small (read ports).toNat_lt]
      rfl

theorem portInRange_port (ports : Option Ports) (read : Ports → UInt16) :
    portInRange (ports.map fun ports => ((read ports).toNat : Int)) = true := by
  cases ports with
  | none => rfl
  | some ports =>
      have hlt := (read ports).toNat_lt
      show (decide (0 ≤ ((read ports).toNat : Int)) &&
        decide (((read ports).toNat : Int) ≤ 65535)) = true
      rw [Bool.and_eq_true, decide_eq_true_eq, decide_eq_true_eq]
      omega

/-- The row of a packet gives its tuple. -/
theorem readRow_fields (pkt : Packet) :
    readRow ([','].intercalate (tsharkFields pkt)) =
      some (tupleOf pkt.ip (protocolOf (intText pkt.ip.proto.toNat)) (tsharkPorts pkt)) := by
  have hproto : pkt.ip.proto.toNat < 256 := pkt.ip.proto.toNat_lt
  have hsrc := IpAddress.parseV4_str pkt.ip.src.toNat
  have hdst := IpAddress.parseV4_str pkt.ip.dst.toNat
  have hnumber : ∀ k : Nat, k < 256 → (intText pkt.ip.proto.toNat = intText k ↔
      pkt.ip.proto = UInt8.ofNat k) := by
    intro k hk
    constructor
    · intro h
      rw [← intText_injective h, UInt8.ofNat_toNat]
    · intro h
      rw [h, UInt8.toNat_ofNat_of_lt' hk]
  have htcp := hnumber 6 (by decide)
  have hudp := hnumber 17 (by decide)
  unfold readRow
  rw [columns_of_row]
  unfold tsharkFields
  rw [first_ipv4]
  simp only [Option.elim_some, addressText, hsrc, hdst, parseInt_small (by omega :
    pkt.ip.proto.toNat < 65536), Option.bind_eq_bind, Option.bind_some]
  rw [if_neg (by omega)]
  have hsix : (intText (6 : Nat)) = "6".toList := rfl
  have hseventeen : (intText (17 : Nat)) = "17".toList := rfl
  rw [← hsix, ← hseventeen]
  have hports : ∀ ports : Option Ports,
      (do
        let sport ← readPort (ports.elim [] fun ports => portText ports.sport)
        let dport ← readPort (ports.elim [] fun ports => portText ports.dport)
        if portInRange sport && portInRange dport then
          some (⟨some (IpAddress.str (.v4 pkt.ip.src.toNat)),
            some (IpAddress.str (.v4 pkt.ip.dst.toNat)),
            some (protocolOf (intText pkt.ip.proto.toNat)), sport, dport⟩ : FiveTuple)
        else none) =
        some (tupleOf pkt.ip (protocolOf (intText pkt.ip.proto.toNat)) ports) := by
    intro ports
    rw [readPort_text ports Ports.sport, readPort_text ports Ports.dport]
    simp only [Option.bind_eq_bind, Option.bind_some, portInRange_port, Bool.and_self, if_true]
    rfl
  unfold tsharkPorts
  by_cases hsix : pkt.ip.proto = 6
  · rw [if_pos (htcp.mpr hsix), if_pos hsix]
    exact hports _
  · rw [if_neg fun h => hsix (htcp.mp h), if_neg hsix]
    by_cases hseventeen : pkt.ip.proto = 17
    · rw [if_pos (hudp.mpr hseventeen), if_pos hseventeen]
      exact hports _
    · rw [if_neg fun h => hseventeen (hudp.mp h), if_neg hseventeen]
      exact hports none

theorem splitlines_rows (rows : List PyStr)
    (h : ∀ row ∈ rows, ∀ c ∈ row, isLineBreak c = false) :
    splitlines (rows.flatMap (· ++ ['\n'])) = rows := by
  induction rows with
  | nil => rfl
  | cons row rows ih =>
      have hrest := ih fun r hr => h r (List.mem_cons_of_mem row hr)
      have hfeed : ∀ line rest, splitlinesFrom line ('\n' :: rest) =
          line.reverse :: splitlinesFrom [] rest := fun line rest => splitlinesFrom_cons (by decide)
      unfold splitlines at hrest ⊢
      rw [List.flatMap_cons, List.append_assoc, splitlinesFrom_solid (h row List.mem_cons_self)]
      show splitlinesFrom _ ('\n' :: rows.flatMap (· ++ ['\n'])) = _
      rw [hfeed, hrest, List.append_nil, List.reverse_reverse]

theorem extractWithTshark_output (capture : List Packet) :
    extractWithTshark (tsharkOutput capture) = capture.map fun pkt =>
      tupleOf pkt.ip (protocolOf (intText pkt.ip.proto.toNat)) (tsharkPorts pkt) := by
  have hrows : tsharkOutput capture =
      (capture.map fun pkt => [','].intercalate (tsharkFields pkt)).flatMap (· ++ ['\n']) := by
    rw [List.flatMap_map]
    rfl
  have hsolid : ∀ row ∈ capture.map fun pkt => [','].intercalate (tsharkFields pkt),
      ∀ c ∈ row, isLineBreak c = false := by
    intro row hrow c hc
    obtain ⟨pkt, -, rfl⟩ := List.mem_map.mp hrow
    rcases IpAddress.mem_intercalate hc with rfl | ⟨field, hfield, hc⟩
    · decide
    · rw [← Bool.not_eq_true]
      intro hbreak
      have hspace := (plain_of_isColumnChar (column_of_mem_tsharkFields hfield c hc)).2
      rw [isSpace_of_isLineBreak hbreak] at hspace
      cases hspace
  unfold extractWithTshark
  rw [hrows, splitlines_rows _ hsolid, List.filterMap_map]
  exact List.filterMap_eq_map_iff_forall_eq_some.mpr fun pkt _ => readRow_fields pkt

/-- The tuple that `scapy` gives for a packet. -/
def scapyTuple (pkt : Packet) : FiveTuple :=
  match pkt.first Layer.exactTcp?, pkt.first Layer.exactUdp? with
  | some ports, _ => tupleOf pkt.ip "TCP".toList (some ports)
  | none, some ports => tupleOf pkt.ip "UDP".toList (some ports)
  | none, none => tupleOf pkt.ip (protocolOf (intText pkt.ip.proto.toNat)) none

theorem extractWithScapy_eq (capture : List Packet) :
    extractWithScapy capture = capture.map scapyTuple := by
  unfold extractWithScapy
  refine List.filterMap_eq_map_iff_forall_eq_some.mpr ?_
  intro pkt _
  unfold readPacket
  rw [first_exactIpv4]
  rfl

/-! ## Agreement -/

/-- The transport that the IP layer names is the one that is found in the packet. Under
TCP, the first TCP header has the ports of the first one that is not quoted, if any, and
without that there is no UDP; under UDP there is no TCP and likewise for the ports; under
another protocol there is neither. -/
def SameTransport (pkt : Packet) : Prop :=
  if pkt.ip.proto = 6 then
    pkt.first Layer.tcp? = pkt.first Layer.exactTcp? ∧
      (pkt.first Layer.exactTcp? = none → pkt.first Layer.exactUdp? = none)
  else if pkt.ip.proto = 17 then
    pkt.first Layer.exactTcp? = none ∧ pkt.first Layer.udp? = pkt.first Layer.exactUdp?
  else pkt.first Layer.exactTcp? = none ∧ pkt.first Layer.exactUdp? = none

theorem tupleOf_inj {ip : Ipv4} {protocol protocol' : PyStr} {ports ports' : Option Ports} :
    tupleOf ip protocol ports = tupleOf ip protocol' ports' ↔
      protocol = protocol' ∧ ports = ports' := by
  constructor
  · intro h
    unfold tupleOf at h
    injection h with _ _ hprotocol hsport hdport
    refine ⟨Option.some.inj hprotocol, ?_⟩
    cases ports with
    | none =>
        cases ports' with
        | none => rfl
        | some ports' => cases hsport
    | some ports =>
        cases ports' with
        | none => cases hsport
        | some ports' =>
            have hs := Int.ofNat.inj (Option.some.inj hsport)
            have hd := Int.ofNat.inj (Option.some.inj hdport)
            obtain ⟨sport, dport⟩ := ports
            obtain ⟨sport', dport'⟩ := ports'
            obtain rfl : sport = sport' := UInt16.toNat_inj.mp hs
            obtain rfl : dport = dport' := UInt16.toNat_inj.mp hd
            rfl
  · rintro ⟨rfl, rfl⟩
    rfl

theorem same_iff (pkt : Packet) :
    tupleOf pkt.ip (protocolOf (intText pkt.ip.proto.toNat)) (tsharkPorts pkt) =
      scapyTuple pkt ↔ SameTransport pkt := by
  have htcp : protocolOf (intText (6 : UInt8).toNat) = "TCP".toList := by decide
  have hudp : protocolOf (intText (17 : UInt8).toNat) = "UDP".toList := by decide
  have hne : "TCP".toList ≠ "UDP".toList := by decide
  unfold SameTransport scapyTuple tsharkPorts
  by_cases hsix : pkt.ip.proto = 6
  · rw [if_pos hsix, if_pos hsix, hsix, htcp]
    cases hT : pkt.first Layer.exactTcp? with
    | some ports => simp [tupleOf_inj]
    | none =>
        cases hU : pkt.first Layer.exactUdp? with
        | some ports => simp [tupleOf_inj]
        | none => simp [tupleOf_inj]
  · rw [if_neg hsix, if_neg hsix]
    by_cases hseventeen : pkt.ip.proto = 17
    · rw [if_pos hseventeen, if_pos hseventeen, hseventeen, hudp]
      cases hT : pkt.first Layer.exactTcp? with
      | some ports => simp [tupleOf_inj]
      | none =>
          cases hU : pkt.first Layer.exactUdp? with
          | some ports => simp [tupleOf_inj]
          | none => simp [tupleOf_inj]
    · rw [if_neg hseventeen, if_neg hseventeen]
      cases hT : pkt.first Layer.exactTcp? with
      | some ports => simp [tupleOf_inj]
      | none =>
          cases hU : pkt.first Layer.exactUdp? with
          | some ports => simp [tupleOf_inj]
          | none => simp

/-- **The readers give the same tuples for a capture exactly when every packet carries
the transport that its first IP layer names.** -/
theorem readers_agree_iff (capture : List Packet) :
    extractWithTshark (tsharkOutput capture) = extractWithScapy capture ↔
      ∀ pkt ∈ capture, SameTransport pkt := by
  rw [extractWithTshark_output, extractWithScapy_eq, List.map_inj_left]
  constructor
  · intro h pkt hpkt
    exact (same_iff pkt).mp (h pkt hpkt)
  · intro h pkt hpkt
    exact (same_iff pkt).mpr (h pkt hpkt)

/-- A TCP segment in a GRE tunnel. -/
def tunnelled : Packet where
  below := [.other "Ether".toList]
  ip := ⟨0xC0000201, 0xC0000202, 47⟩
  above := [.other "GRE".toList, .ipv4 ⟨0x0A000001, 0x0A000002, 6⟩ false, .tcp ⟨40000, 80⟩ false]
  noIpBelow := by decide

/-- The readers differ on a tunnel: `tshark` gives the tunnel without ports, `scapy` the
TCP segment in it with the addresses of the tunnel. -/
theorem readers_differ :
    extractWithTshark (tsharkOutput [tunnelled]) ≠ extractWithScapy [tunnelled] := by
  decide

end SrxProbe.Collectors.Pcap
