import SrxProbe.Generators.L7Client
import SrxProbe.Generators.Load

/-!
# Generated traffic

Every way in which a generator causes traffic, with the stimulus that it returns. Whatever the
generator, the stimulus describes the traffic.
-/

namespace SrxProbe.Generators

open SrxProbe.Lib SrxProbe.Validation

/-- The socket was connected, and the flow is what goes over it. -/
def ConnectedTo (connect : Except Raised (PyStr × Int)) (dst : PyStr) (proto : UInt8)
    (dstPort : Int) (f : Flow) : Prop :=
  ∃ src sport, connect = .ok (src, sport) ∧ OnWire IsAddress src dst proto sport dstPort f

/-- A generator returned the stimulus, and the flow is some of the traffic it caused. What it
sends to is given by address, the URL of a load is one of its target, and the source of a scan
or a flood, which is not among the arguments, is the generator's. -/
inductive Caused (net : Network) (stimulus : Stimulus) (f : Flow) : Prop
  | single {g : PacketGenerator} {v : Variant} {dstPort : Int} {sport : EphemeralPort}
      {ts : Timestamp} {send : Option (Except PyErr Unit)} {segments : List Segment}
      {segment : Segment}
      (returned : g.single v dstPort sport ts send = .ok (stimulus, segments))
      (sent : segment ∈ segments)
      (wire : OnWire IsAddress segment.src segment.dst 6 segment.sport segment.dport f)
  | fragments {g : PacketGenerator} {dstPort fragCount : Int} {sport : EphemeralPort}
      {ts : Timestamp} {send : Option (Except PyErr Unit)} {frags : List Fragment}
      {frag : Fragment}
      (returned : g.fragments dstPort fragCount sport ts send = .ok (stimulus, frags))
      (sent : frag ∈ frags) (wire : OnWire IsAddress frag.src frag.dst 6 frag.sport frag.dport f)
  | tcpScan {host : Host} {g : ScanGenerator} {scanType : PyStr} {maxPorts : Int} {ts : Timestamp}
      {run : Option (List PyStr → Except PyErr Unit)} {cmd : List PyStr} {a : UInt32}
      (returned : g.tcpScan host scanType maxPorts ts run = .ok (stimulus, some cmd))
      (sent : net.sends .nmap cmd f) (target : IsAddress g.dstIp a)
      (source : IsAddress g.srcIp f.ip.src)
  | flood {host : Host} {g : ScanGenerator} {floodType : PyStr} {dstPort count ratePps : Int}
      {ts : Timestamp} {run : Option (List PyStr → Except PyErr Unit)} {cmd : List PyStr}
      {a : UInt32}
      (returned : g.flood host floodType dstPort count ratePps ts run = .ok (stimulus, some cmd))
      (sent : net.sends .hping3 cmd f) (target : IsAddress g.dstIp a)
      (source : IsAddress g.srcIp f.ip.src)
  | sessionVolume {host : Host} {g : LoadGenerator} {ts : Timestamp}
      {run : Option (List PyStr → Except PyErr Unit)} {connections threads duration : Int}
      {cmd : List PyStr} {a : UInt32} (url : PlainUrl g.dstIp)
      (returned : g.sessionVolume host ts run url.text connections threads duration =
        .ok (stimulus, some cmd))
      (sent : net.sends .wrk cmd f) (target : IsAddress g.dstIp a)
  | throughput {host : Host} {g : LoadGenerator} {ts : Timestamp}
      {run : Option (List PyStr → Except PyErr Unit)} {server : Option PyStr}
      {duration parallel port : Int} {cmd : List PyStr} {a : UInt32}
      (returned : g.throughput host ts run server duration parallel port =
        .ok (stimulus, some cmd))
      (sent : net.sends .iperf3 cmd f)
      (target : ∀ name ∈ stimulus.fiveTuple.dstIp, IsAddress name a)
  | httpGet {localAddr : Option (PyStr × Int)} {dstIp : PyStr} {ts : Timestamp} {url : PyStr}
      {dstPort : Int} {w : HttpWorld}
      (returned : httpGet localAddr dstIp ts url dstPort (some w) = .ok stimulus)
      (wire : ConnectedTo w.connect dstIp 6 dstPort f)
  | eicar {localAddr : Option (PyStr × Int)} {dstIp : PyStr} {ts : Timestamp} {path : PyStr}
      {dstPort : Int} {w : HttpWorld}
      (returned : deliverEicarHttp localAddr dstIp ts dstPort path (some w) = .ok stimulus)
      (wire : ConnectedTo w.connect dstIp 6 dstPort f)
  | gtube {localAddr : Option (PyStr × Int)} {dstIp : PyStr} {ts : Timestamp} {path : PyStr}
      {dstPort : Int} {w : HttpWorld}
      (returned : deliverGtubeHttp localAddr dstIp ts dstPort path (some w) = .ok stimulus)
      (wire : ConnectedTo w.connect dstIp 6 dstPort f)
  | dnsQuery {localAddr : Option (PyStr × Int)} {dnsServer : PyStr} {ts : Timestamp}
      {qname : PyStr} {w : DnsWorld}
      (returned : dnsQuery localAddr dnsServer ts qname (some w) = .ok stimulus)
      (wire : ConnectedTo w.connect dnsServer 17 53 f)
  | tcpHandshake {localAddr : Option (PyStr × Int)} {dstIp : PyStr} {ts : Timestamp} {host : Host}
      {dstPort : Int} {app : PyStr} {connect : Except Raised (PyStr × Int)} {banner : HttpRecv}
      (returned : tcpHandshake localAddr dstIp ts host dstPort app (some (connect, banner)) =
        .ok stimulus)
      (wire : ConnectedTo connect dstIp 6 dstPort f)

section

variable {net : Network} {stimulus : Stimulus} {f : Flow}

/-- What is sent over a connection is described by the ends of it. -/
theorem connection_describes {localAddr : Option (PyStr × Int)} {dstIp : PyStr} {ts : Timestamp}
    {dstPort : Int} {proto : UInt8} {protocol event target last : String} {payloadClass : PyStr}
    {sent connect : Except Raised (PyStr × Int)}
    (hconnect : ∀ ends, sent = .ok ends → connect = .ok ends)
    (h : (do
      let ends ← endsOf localAddr (some sent)
      return connectionStimulus ends dstIp protocol dstPort ts event payloadClass target last) =
        Except.ok stimulus)
    (hwire : ConnectedTo connect dstIp proto dstPort f)
    (hname : Collectors.Pcap.protoNum.lookup (intText proto.toNat) = some protocol.toList) :
    Describes stimulus.fiveTuple f := by
  obtain ⟨src, sport, hends, hwire⟩ := hwire
  obtain ⟨ends, hsent, h⟩ := bind_ok_iff.mp h
  obtain ⟨e, he, rfl⟩ := endsOf_sent hsent
  have heq := hends.symm.trans (hconnect e he)
  cases h
  cases heq
  exact connectionStimulus_describes hwire hname

/-- The ends that a query returns are those of its socket. -/
theorem connect_of_rawDns {w : DnsWorld} {dnsServer qname : PyStr} {ends : PyStr × Int}
    (h : rawDns w dnsServer qname = .ok ends) : w.connect = .ok ends := by
  unfold rawDns at h
  split at h
  · cases h
  · obtain ⟨ends', hconnect, h⟩ := bind_ok_iff.mp h
    obtain ⟨-, h⟩ := seq_ok_iff.mp h
    obtain ⟨_, -, h⟩ := bind_ok_iff.mp h
    obtain ⟨-, h⟩ := seq_ok_iff.mp h
    cases h
    exact hconnect

/-- Whatever the generator, its stimulus says nothing else than the headers of its traffic. -/
theorem Caused.describes (h : Caused net stimulus f) : Describes stimulus.fiveTuple f := by
  cases h with
  | single returned sent wire => exact single_describes returned sent wire
  | fragments returned sent wire => exact fragments_describes returned sent wire
  | tcpScan returned sent target source =>
      exact tcpScan_describes net returned target sent source
  | flood returned sent target source => exact flood_describes net returned target sent source
  | sessionVolume url returned sent target =>
      exact sessionVolume_describes net url returned target sent
  | throughput returned sent target => exact throughput_describes net returned target sent
  | httpGet returned wire =>
      exact connection_describes (fun ends => connect_of_rawHttp) returned wire (by decide)
  | eicar returned wire =>
      exact connection_describes (fun ends => connect_of_rawHttp) returned wire (by decide)
  | gtube returned wire =>
      exact connection_describes (fun ends => connect_of_rawHttp) returned wire (by decide)
  | dnsQuery returned wire =>
      exact connection_describes (fun ends => connect_of_rawDns) returned wire (by decide)
  | tcpHandshake returned wire =>
      refine connection_describes ?_ returned wire (by decide)
      intro ends hsent
      obtain ⟨ends', hconnect, hbanner⟩ := bind_ok_iff.mp hsent
      split at hbanner <;> cases hbanner
      all_goals exact hconnect

end

end SrxProbe.Generators
