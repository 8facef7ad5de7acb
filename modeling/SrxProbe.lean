import SrxProbe.Lib.TSys
import SrxProbe.Dashboard.Run
import SrxProbe.Dashboard.RunSpec
import SrxProbe.Dashboard.RunSafety
import SrxProbe.Dashboard.Admission
import SrxProbe.Dashboard.AdmissionInv
import SrxProbe.Dashboard.AdmissionSafety
import SrxProbe.Dashboard.Replay
import SrxProbe.Dashboard.Stream
import SrxProbe.Dashboard.StreamAtomic
import SrxProbe.Dashboard.StreamGaps
import SrxProbe.Dashboard.Worker
import SrxProbe.Dashboard.WorkerSafety
import SrxProbe.Validation.Addresses
import SrxProbe.Collectors.Decode
import SrxProbe.Collectors.Constraint
import SrxProbe.Collectors.Framing
import SrxProbe.Collectors.PcapAgree
import SrxProbe.Generators.Endpoint
import SrxProbe.Deploy.ExecutionSafety
import SrxProbe.Dashboard.Contract
import SrxProbe.Dashboard.Bounds
import SrxProbe.Dashboard.Remote
import SrxProbe.Dashboard.History
import SrxProbe.PingApp.Restart
import SrxProbe.PingApp.Series
import SrxProbe.PingApp.Snapshot
import SrxProbe.Dashboard.BatchSummary
import SrxProbe.Generators.CrawlReturns
import SrxProbe.Collectors.Legacy
import SrxProbe.Collectors.Truncation
import SrxProbe.PingApp.Retention
import SrxProbe.Generators.Flood
import SrxProbe.Generators.DnsQuery
import SrxProbe.Generators.Fragments
import SrxProbe.Deploy.StartGate
import SrxProbe.Collectors.GroundTruth
import SrxProbe.Dashboard.Wire
import SrxProbe.Dashboard.Normal
import SrxProbe.Collectors.Buffer
import SrxProbe.Generators.Pieces
import SrxProbe.Generators.Hidden
import SrxProbe.Lib.JsonRoundTrip
import SrxProbe.Dashboard.ServerSafety
import SrxProbe.Validation.Probe
import SrxProbe.Dashboard.HistoryFile
import SrxProbe.Dashboard.Traffic
