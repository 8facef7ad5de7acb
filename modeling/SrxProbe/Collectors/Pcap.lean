import SrxProbe.Lib.IpAddress
import SrxProbe.Validation.Correlator

/-!
# Reading a capture

The two readers of a packet capture. One takes the rows that `tshark` prints, with the
first occurrence of each field; the other looks for the layers of a packet in `scapy`.
-/

namespace SrxProbe.Collectors.Pcap

open SrxProbe.Lib SrxProbe.Validation

/-! ## Captures -/

/-- The fields of an IPv4 header that are read. -/
structure Ipv4 where
  src : UInt32
  dst : UInt32
  proto : UInt8
  deriving DecidableEq, Repr

/-- The ports of a TCP or UDP header. -/
structure Ports where
  sport : UInt16
  dport : UInt16
  deriving DecidableEq, Repr

/-- A protocol layer. A header quoted in an ICMP error has the fields of its protocol,
and a class of its own in `scapy`. -/
inductive Layer
  | ipv4 (header : Ipv4) (quoted : Bool)
  | ipv6
  | tcp (ports : Ports) (quoted : Bool)
  | udp (ports : Ports) (quoted : Bool)
  | other (name : PyStr)
  deriving DecidableEq, Repr

namespace Layer

def isIp : Layer → Bool
  | ipv4 _ _ | ipv6 => true
  | _ => false

/-- The header of a layer with the fields of IPv4. -/
def ipv4? : Layer → Option Ipv4
  | ipv4 header _ => some header
  | _ => none

/-- The header of a layer of class `IP`. -/
def exactIpv4? : Layer → Option Ipv4
  | ipv4 header false => some header
  | _ => none

def tcp? : Layer → Option Ports
  | tcp ports _ => some ports
  | _ => none

def exactTcp? : Layer → Option Ports
  | tcp ports false => some ports
  | _ => none

def udp? : Layer → Option Ports
  | udp ports _ => some ports
  | _ => none

def exactUdp? : Layer → Option Ports
  | udp ports false => some ports
  | _ => none

end Layer

/-- A packet whose first IP layer is IPv4. -/
structure Packet where
  below : List Layer
  ip : Ipv4
  above : List Layer
  noIpBelow : ∀ layer ∈ below, layer.isIp = false

namespace Packet

def layers (pkt : Packet) : List Layer := pkt.below ++ .ipv4 pkt.ip false :: pkt.above

/-- The first layer that has what is asked for. -/
def first {α : Type} (pkt : Packet) (read : Layer → Option α) : Option α :=
  pkt.layers.findSome? read

end Packet

/-- `_PROTO_NUM`. -/
def protoNum : List (PyStr × PyStr) :=
  [("1".toList, "ICMP".toList), ("6".toList, "TCP".toList), ("17".toList, "UDP".toList),
    ("47".toList, "GRE".toList), ("50".toList, "ESP".toList)]

/-- `_PROTO_NUM.get(proto, proto)`. -/
def protocolOf (proto : PyStr) : PyStr := (protoNum.lookup proto).getD proto

def addressText (ip : UInt32) : PyStr := IpAddress.str (.v4 ip.toNat)

def portText (port : UInt16) : PyStr := intText port.toNat

/-! ## Through tshark -/

/-- The fields that `tshark` prints of a packet: the first occurrence of each. -/
def tsharkFields (pkt : Packet) : List PyStr :=
  let ip := pkt.first Layer.ipv4?
  let tcp := pkt.first Layer.tcp?
  let udp := pkt.first Layer.udp?
  [ip.elim [] fun ip => addressText ip.src, ip.elim [] fun ip => addressText ip.dst,
    ip.elim [] fun ip => intText ip.proto.toNat,
    tcp.elim [] fun ports => portText ports.sport, tcp.elim [] fun ports => portText ports.dport,
    udp.elim [] fun ports => portText ports.sport, udp.elim [] fun ports => portText ports.dport]

/-- The output of `tshark`, a row for each packet. -/
def tsharkOutput (capture : List Packet) : PyStr :=
  capture.flatMap fun pkt => [','].intercalate (tsharkFields pkt) ++ ['\n']

/-- `int(port) if port else None`, `none` where it raises `ValueError`. -/
def readPort (port : PyStr) : Option (Option Int) :=
  if port = [] then some none else (parseInt port).map some

/-- Whether a port is in range, if there is one. -/
def portInRange (port : Option Int) : Bool := port.all fun n => 0 ≤ n && n ≤ 65535

/-- The tuple of a row, `none` where the row is skipped. -/
def readRow (line : PyStr) : Option FiveTuple :=
  match (line.splitOn ',').map strip with
  | [ipSrc, ipDst, ipProto, tsp, tdp, usp, udp] => do
      let _ ← IpAddress.parseV4 ipSrc
      let _ ← IpAddress.parseV4 ipDst
      let proto ← parseInt ipProto
      if ¬ (0 ≤ proto ∧ proto ≤ 255) then none
      else
        let ipProto := intText proto
        -- the ports of the protocol, not of a transport found elsewhere
        let (sport, dport) :=
          if ipProto = "6".toList then (tsp, tdp)
          else if ipProto = "17".toList then (usp, udp)
          else ([], [])
        let sport ← readPort sport
        let dport ← readPort dport
        if portInRange sport && portInRange dport then
          some ⟨some ipSrc, some ipDst, some (protocolOf ipProto), sport, dport⟩
        else none
  | _ => none

/-- `_extract_with_tshark`, from the output of `tshark`. -/
def extractWithTshark (out : PyStr) : List FiveTuple := (splitlines out).filterMap readRow

/-! ## Through scapy -/

/-- `FiveTuple(...)` of a protocol and the ports of a header. -/
def tupleOf (ip : Ipv4) (protocol : PyStr) (ports : Option Ports) : FiveTuple :=
  ⟨some (addressText ip.src), some (addressText ip.dst), some protocol,
    ports.map fun ports => ports.sport.toNat, ports.map fun ports => ports.dport.toNat⟩

/-- The tuple of a packet, `none` where it has no layer of class `IP`. -/
def readPacket (pkt : Packet) : Option FiveTuple :=
  (pkt.first Layer.exactIpv4?).map fun ip =>
    match pkt.first Layer.exactTcp?, pkt.first Layer.exactUdp? with
    | some ports, _ => tupleOf ip "TCP".toList (some ports)
    | none, some ports => tupleOf ip "UDP".toList (some ports)
    | none, none => tupleOf ip (protocolOf (intText ip.proto.toNat)) none

/-- `_extract_with_scapy`. -/
def extractWithScapy (capture : List Packet) : List FiveTuple := capture.filterMap readPacket

end SrxProbe.Collectors.Pcap
