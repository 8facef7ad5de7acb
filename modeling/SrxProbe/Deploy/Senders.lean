import SrxProbe.Deploy.Summary
import SrxProbe.Generators.CrawlSocket
import SrxProbe.Generators.DnsQuery
import SrxProbe.Generators.Load

/-!
# Senders

What a command comes to once its arguments are read: the sender of each command behind its
validation, the source address and the confirmation that `main` asks for in front of it, and
the flows that a sender then causes.
-/

namespace SrxProbe.Deploy

open SrxProbe.Lib SrxProbe.Generators

/-! ## Actions -/

/-- What a sender calls, with what it gives. -/
inductive Action
  | crawlPage (url : PyStr) (maxBytes timeout : Int)
  | httpGet (dstIp path : PyStr) (dstPort : Int)
  | dnsQuery (dnsServer qname : PyStr)
  | tcpHandshake (dstIp : PyStr) (dstPort : Int) (app : PyStr)
  | deliverEicarHttp (dstIp : PyStr) (dstPort : Int)
  | deliverGtubeHttp (dstIp : PyStr) (dstPort : Int)
  | packet (g : PacketGenerator) (v : Variant) (dstPort : Int)
  | fragments (g : PacketGenerator) (dstPort fragCount : Int)
  | run (tool : Tool) (cmd : List PyStr) (timeout : Int)

/-! ## Senders -/

/-- `a.dest` of an option whose type is `int`. -/
def Namespace.attrInt (a : Namespace) (dest : String) : Except PyErr Int := do
  match ← a.attr dest with
  | .int n => .ok n
  | _ => .error .other

/-- `do_crawl`. -/
def doCrawl (a : Namespace) : Except PyErr Action := do
  let url ← targetUrl (← a.attrStr "target") (← a.attrStr "path") (← a.attrStr "scheme")
    (← a.attr "port")
  return .crawlPage url (← a.attrInt "max_bytes") (← a.attrInt "timeout")

/-- `do_http`. -/
def doHttp (a : Namespace) : Except PyErr Action := do
  return .httpGet (← a.attrStr "target") (← a.attrStr "path") (← a.attrInt "port")

/-- `do_dns`. -/
def doDns (a : Namespace) : Except PyErr Action := do
  return .dnsQuery (← a.attrStr "target") (← a.attrStr "qname")

/-- `do_handshake`. -/
def doHandshake (a : Namespace) : Except PyErr Action := do
  return .tcpHandshake (← a.attrStr "target") (← a.attrInt "port") (← a.attrStr "app")

/-- `do_eicar`. -/
def doEicar (a : Namespace) : Except PyErr Action := do
  return .deliverEicarHttp (← a.attrStr "target") (← a.attrInt "port")

/-- `do_gtube`. -/
def doGtube (a : Namespace) : Except PyErr Action := do
  return .deliverGtubeHttp (← a.attrStr "target") (← a.attrInt "port")

/-- `do_scan`. -/
def doScan (host : Host) (a : Namespace) : Except PyErr Action := do
  let cmd ← (buildNmapCmd host a.limitsOf (← a.attrStr "target") (← a.attrStr "type")
    (← a.attrInt "max_ports")).result
  return .run .nmap cmd (a.limitsOf.maxDurationS + 30)

/-- `do_flood`. -/
def doFlood (host : Host) (a : Namespace) : Except PyErr Action := do
  let cmd ← (buildHping3FloodCmd host a.limitsOf (← a.attrStr "target") (← a.attrStr "type")
    (← a.attrInt "port") (← a.attrInt "count") (← a.attrInt "rate")).result
  return .run .hping3 cmd (a.limitsOf.maxDurationS + 30)

/-- The senders of one crafted packet. -/
def sendPacket (a : Namespace) (v : Variant) : Except PyErr Action := do
  return .packet ⟨← a.attrStr "src", ← a.attrStr "target"⟩ v (← a.attrInt "port")

/-- `do_malformed`. -/
def doMalformed (a : Namespace) : Except PyErr Action :=
  sendPacket a PacketGenerator.malformedFlags

/-- `do_badcsum`. -/
def doBadcsum (a : Namespace) : Except PyErr Action := sendPacket a PacketGenerator.badChecksum

/-- `do_ttl`. -/
def doTtl (a : Namespace) : Except PyErr Action := do
  sendPacket a (PacketGenerator.tinyTtl (← a.attrInt "ttl"))

/-- `do_frag`. -/
def doFrag (a : Namespace) : Except PyErr Action := do
  return .fragments ⟨← a.attrStr "src", ← a.attrStr "target"⟩ (← a.attrInt "port")
    (← a.attrInt "count")

/-- `do_deny`. -/
def doDeny (a : Namespace) : Except PyErr Action := sendPacket a PacketGenerator.tcpToDeniedPort

/-- `do_wrk`. `session_volume` checks what its builder checks again. -/
def doWrk (host : Host) (a : Namespace) : Except PyErr Action := do
  let url ← loadUrl a
  let connections ← a.attrInt "connections"
  let threads ← a.attrInt "threads"
  let duration ← a.attrInt "duration"
  a.limitsOf.wrk (.int connections) (.int threads) (.int duration)
  let _ ← httpPort url
  let cmd ← (buildWrkCmd host a.limitsOf url connections threads duration).result
  return .run .wrk cmd (duration + 30)

/-- `do_iperf`. `throughput` checks what its builder checks again. -/
def doIperf (host : Host) (a : Namespace) : Except PyErr Action := do
  let server ← a.attrStr "target"
  let duration ← a.attrInt "duration"
  let parallel ← a.attrInt "parallel"
  let port ← a.attrInt "port"
  a.limitsOf.iperf (.int duration) (.int parallel) (.int port)
  let cmd ← (buildIperf3Cmd host a.limitsOf server duration parallel port).result
  return .run .iperf3 cmd (duration + 30)

/-- The function of a command. `do_all` sends nothing of its own. -/
def sender (host : Host) (command : Command) (a : Namespace) : Except PyErr Action :=
  match command with
  | .crawl => doCrawl a
  | .http => doHttp a
  | .dns => doDns a
  | .handshake => doHandshake a
  | .eicar => doEicar a
  | .gtube => doGtube a
  | .scan => doScan host a
  | .flood => doFlood host a
  | .malformed => doMalformed a
  | .badcsum => doBadcsum a
  | .ttl => doTtl a
  | .frag => doFrag a
  | .deny => doDeny a
  | .wrk => doWrk host a
  | .iperf => doIperf host a
  | .all => .error .other

/-- `validated`. -/
def validated (host : Host) (command : Command) (a : Namespace) : Except PyErr Action := do
  validateArgs a command
  sender host command a

/-- `do_all`: what the functions of the suite send. One that raises does not stop the others. -/
def doAll (host : Host) (a : Namespace) : Except PyErr (List Action) := do
  validateArgs a .all
  let workloads ← buildAllWorkloads a
  checkSuite (workloads.map Workload.task) a.limitsOf
  return workloads.filterMap fun w => (validated host w.func w.args).toOption

/-- What `_run_workload` comes to for the function of a command: an exception sends nothing
more. -/
def performed (host : Host) (a : Namespace) : List Action :=
  if a.cmd = .all then (doAll host a).toOption.getD []
  else (validated host a.cmd a).toOption.toList

/-! ## The program -/

/-- Where the program runs: what its host has, the source address that the route to a target
gives, and what is typed at the prompt, if anything is. -/
structure Machine extends Host where
  route : PyStr → Except Raised PyStr
  answer : Option PyStr

/-- `AGGRESSIVE`. -/
def aggressive : List Command :=
  [.scan, .flood, .malformed, .badcsum, .ttl, .frag, .deny, .all]

/-- `CRAFTED`. -/
def crafted : List Command := [.malformed, .badcsum, .ttl, .frag, .deny, .all]

/-- How `main` ends before it runs anything: in the parser, with a usage error of its own, with
an exception, or because the prompt was not answered with yes. -/
inductive MainExit
  | parser (exit : CliExit)
  | usage (message : PyStr)
  | raised (exc : Raised)
  | aborted
  deriving DecidableEq, Repr

/-- The source of crafted packets that are given none is the one routed to their target. -/
def withSource (m : Machine) (a : Namespace) : Except MainExit Namespace :=
  match a.attrs "src".toList with
  | some .none =>
      if a.cmd ∈ crafted then
        let target := ((a.attrs "target".toList).bind PyValue.str?).getD []
        match m.route target with
        | .ok src => .ok { a with attrs := update a.attrs "src".toList (some (.str src)) }
        | .error exc =>
            if exc.err = .osError then
              .error (.usage ("cannot determine the source address for ".toList ++ m.repr target ++
                ": ".toList ++ exc.message ++ "; pass --src explicitly".toList))
            else .error (.raised exc)
      else .ok a
  | _ => .ok a

/-- `confirm`. -/
def confirm (m : Machine) (command : Command) (assumeYes : Bool) : Except MainExit Unit :=
  if command ∉ aggressive ∨ assumeYes = true then .ok ()
  else
    match m.answer with
    | none => .error (.raised ⟨.other, "EOF when reading a line".toList⟩)
    | some answer => raiseIf (m.lower (strip answer) ≠ "yes".toList) .aborted

/-- `main`, and what it sends, over a `super().parse_args`. -/
def main (read : List PyStr → Except CliExit (Command × Attrs)) (m : Machine)
    (argv : List PyStr) : Except MainExit (List Action) := do
  let a ← (parseWith read argv).mapError .parser
  let a ← withSource m a
  confirm m a.cmd (((a.attrs "yes".toList).getD .none).truthy)
  return performed m.toHost a

/-! ## Flows -/

section flows

variable (net : Network)

/-- A flow to a port of a host. -/
structure Reaches (host : PyStr) (proto : UInt8) (port : Int) (f : Flow) : Prop where
  dst : net.resolves host f.ip.dst
  proto : f.ip.proto = proto
  port : ∃ dport ∈ f.aim.port, port = dport.toNat

/-- The flow is one of those that the call causes where it may send raw packets, but for looking
up names. -/
def Action.Sends (action : Action) (f : Flow) : Prop :=
  match action with
  | .crawlPage url _ _ => ∃ u host port, validateUrl url = .ok u ∧
      crawlConnection u = some (host, port) ∧ Reaches net host 6 port f
  | .httpGet dstIp _ dstPort | .tcpHandshake dstIp dstPort _ | .deliverEicarHttp dstIp dstPort
  | .deliverGtubeHttp dstIp dstPort => Reaches net dstIp 6 dstPort f
  | .dnsQuery dnsServer qname => (dnsPacket qname).toOption.isSome = true ∧
      Reaches net dnsServer 17 53 f
  | .packet g v dstPort => ∃ sport ts stimulus segments, ∃ segment ∈ segments,
      g.single v dstPort sport ts (some (.ok ())) = .ok (stimulus, segments) ∧
      OnWire net.resolves segment.src segment.dst 6 segment.sport segment.dport f
  | .fragments g dstPort fragCount => ∃ sport ts stimulus frags, ∃ frag ∈ frags,
      g.fragments dstPort fragCount sport ts (some (.ok ())) = .ok (stimulus, frags) ∧
      OnWire net.resolves frag.src frag.dst 6 frag.sport frag.dport f
  | .run tool cmd _ => net.sends tool cmd f

/-- A run of `main` with these arguments can send the flow. -/
def Emits (read : List PyStr → Except CliExit (Command × Attrs)) (m : Machine)
    (argv : List PyStr) (f : Flow) : Prop :=
  ∃ actions, main read m argv = .ok actions ∧ ∃ action ∈ actions, action.Sends net f

end flows

end SrxProbe.Deploy
