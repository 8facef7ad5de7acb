import SrxProbe.Generators.Stimuli

/-!
# Load

The commands of the load generator and the stimuli it returns for them. A stimulus has the
port of the URL, or that of the server, and leaves the source open.
-/

namespace SrxProbe.Generators

open SrxProbe.Lib SrxProbe.Validation

/-- `LoadGenerator`. -/
structure LoadGenerator where
  dstIp : PyStr
  limits : WorkloadLimits

/-- `build_wrk_cmd`. -/
def buildWrkCmd (host : Host) (limits : WorkloadLimits) (url : PyStr)
    (connections threads durationS : Int) : Built :=
  match (do
    limits.wrk (.int connections) (.int threads) (.int durationS)
    httpPort url) with
  | .error e => ⟨[], .error e⟩
  | .ok _ => ⟨["wrk".toList], do
      let binary ← requireBinary host "wrk".toList
      let connections ← strInt connections
      let threads ← strInt threads
      let duration ← strInt durationS
      return [binary, "-c".toList, connections, "-t".toList, threads, "-d".toList,
        duration ++ ['s'], "--latency".toList, url]⟩

/-- `build_iperf3_cmd`. -/
def buildIperf3Cmd (host : Host) (limits : WorkloadLimits) (server : PyStr)
    (durationS parallel port : Int) : Built :=
  match limits.iperf (.int durationS) (.int parallel) (.int port) with
  | .error e => ⟨[], .error e⟩
  | .ok _ => ⟨["iperf3".toList], do
      let binary ← requireBinary host "iperf3".toList
      let duration ← strInt durationS
      let parallel ← strInt parallel
      let port ← strInt port
      return [binary, "-c".toList, server, "-t".toList, duration, "-P".toList, parallel,
        "-p".toList, port, "--json".toList]⟩

namespace LoadGenerator

variable (host : Host) (g : LoadGenerator) (ts : Timestamp)
  (run : Option (List PyStr → Except PyErr Unit))

/-- `session_volume`. -/
def sessionVolume (url : PyStr) (connections threads durationS : Int) :
    Except PyErr (Stimulus × Option (List PyStr)) := do
  g.limits.wrk (.int connections) (.int threads) (.int durationS)
  let port ← httpPort url
  ScanGenerator.describe
    { fiveTuple := ⟨none, some g.dstIp, some "TCP".toList, none, some port⟩
      timestamp := ts
      expectedEventType := "RT_FLOW_SESSION_CREATE".toList
      payloadClass := "session-volume".toList
      detectionTarget := "Session volume".toList
      expectedFields := ["source-address".toList, "destination-address".toList] }
    (buildWrkCmd host g.limits url connections threads durationS) run

/-- `throughput`; without a server, or with an empty one, it is the target. -/
def throughput (server : Option PyStr) (durationS parallel port : Int) :
    Except PyErr (Stimulus × Option (List PyStr)) := do
  g.limits.iperf (.int durationS) (.int parallel) (.int port)
  let server := match server with
    | none | some [] => g.dstIp
    | some server => server
  ScanGenerator.describe
    { fiveTuple := ⟨none, some server, some "TCP".toList, none, some port⟩
      timestamp := ts
      expectedEventType := "RT_FLOW_SESSION_CLOSE".toList
      payloadClass := "throughput-stream".toList
      detectionTarget := "Throughput".toList
      expectedFields := ["source-address".toList, "destination-address".toList,
        "bytes-from-client".toList] }
    (buildIperf3Cmd host g.limits server durationS parallel port) run

end LoadGenerator

/-! ## What the commands send -/

section traffic

variable {host : Host} {g : LoadGenerator} {ts : Timestamp}
  {run : Option (List PyStr → Except PyErr Unit)} {stimulus : Stimulus} {cmd : List PyStr}
  {f : Flow} {a : UInt32}

/-- The arguments of a load. -/
def wrkArgs (connections threads duration url : PyStr) : List PyStr :=
  ["-c".toList, connections, "-t".toList, threads, "-d".toList, duration, "--latency".toList, url]

/-- What the builder of a load returns. -/
theorem buildWrkCmd_ok_iff {limits : WorkloadLimits} {url : PyStr}
    {connections threads duration : Int} :
    (buildWrkCmd host limits url connections threads duration).result = .ok cmd ↔
      limits.wrk (.int connections) (.int threads) (.int duration) = .ok () ∧
        (∃ port, httpPort url = .ok port) ∧ ∃ binary c t d, host.which "wrk".toList = some binary ∧
          strInt connections = .ok c ∧ strInt threads = .ok t ∧ strInt duration = .ok d ∧
          cmd = binary :: wrkArgs c t (d ++ ['s']) url := by
  unfold buildWrkCmd
  split
  · rename_i e he
    constructor
    · intro h
      cases h
    · rintro ⟨hlimits, ⟨port, hport⟩, -⟩
      rw [hlimits, ok_bind, hport] at he
      cases he
  · rename_i port hok
    obtain ⟨hlimits, hport⟩ := seq_ok_iff.mp hok
    simp only [bind_ok_iff, requireBinary, orRaise_ok_iff]
    constructor
    · rintro ⟨binary, hbinary, c, hc, t, ht, d, hd, h⟩
      cases h
      exact ⟨hlimits, ⟨port, hport⟩, binary, c, t, d, hbinary, hc, ht, hd, rfl⟩
    · rintro ⟨-, -, binary, c, t, d, hbinary, hc, ht, hd, rfl⟩
      exact ⟨binary, hbinary, c, hc, t, ht, d, hd, rfl⟩

/-- The options of a load as they are read. -/
def wrkOptions (connections threads duration : PyStr) : List (PyStr × PyStr) :=
  [("-c".toList, connections), ("-t".toList, threads), ("-d".toList, duration),
    ("--latency".toList, [])]

/-- The call of `wrk` that a load is, for a URL that does not look like an option. -/
def wrkCall (c t d : PyStr) {url : PyStr} (hurl : url.head? ≠ some '-') :
    WrkCall (wrkArgs c t d url) where
  options := wrkOptions c t d
  url := url
  reads := by
    unfold Tool.reads wrkArgs
    rw [getopt_valued (by decide) (by decide), getopt_valued (by decide) (by decide),
      getopt_valued (by decide) (by decide), getopt_flag (by decide),
      getopt_operand (by decide) hurl]
    rfl

/-- A load within its bounds is run. -/
theorem wrkCall_runs {url : PyStr} (hurl : url.head? ≠ some '-')
    {connections threads duration : Nat} (hthreads : 0 < threads ∧ threads ≤ connections)
    (hconnections : connections ≤ 1000000) (hduration : 0 < duration ∧ duration ≤ 1000000) :
    (wrkCall (intText connections) (intText threads) (intText duration ++ ['s']) hurl).Runs where
  threads := ⟨connections, threads, hthreads.1, hthreads.2, hconnections, rfl, rfl⟩
  duration := ⟨duration, hduration.1, hduration.2, rfl⟩

/-- The arguments of a stream. -/
def iperf3Args (server duration parallel port : PyStr) : List PyStr :=
  ["-c".toList, server, "-t".toList, duration, "-P".toList, parallel, "-p".toList, port,
    "--json".toList]

/-- What the builder of a stream returns. -/
theorem buildIperf3Cmd_ok_iff {limits : WorkloadLimits} {server : PyStr}
    {duration parallel port : Int} :
    (buildIperf3Cmd host limits server duration parallel port).result = .ok cmd ↔
      limits.iperf (.int duration) (.int parallel) (.int port) = .ok () ∧
        ∃ binary t n p, host.which "iperf3".toList = some binary ∧ strInt duration = .ok t ∧
          strInt parallel = .ok n ∧ strInt port = .ok p ∧
          cmd = binary :: iperf3Args server t n p := by
  unfold buildIperf3Cmd
  split
  · rename_i e he
    constructor
    · intro h
      cases h
    · rintro ⟨hlimits, -⟩
      cases he.symm.trans hlimits
  · rename_i hlimits
    simp only [bind_ok_iff, requireBinary, orRaise_ok_iff]
    constructor
    · rintro ⟨binary, hbinary, t, ht, n, hn, p, hp, h⟩
      cases h
      exact ⟨hlimits, binary, t, n, p, hbinary, ht, hn, hp, rfl⟩
    · rintro ⟨-, binary, t, n, p, hbinary, ht, hn, hp, rfl⟩
      exact ⟨binary, hbinary, t, ht, n, hn, p, hp, rfl⟩

/-- The port of a stream. -/
theorem port_of_iperf {limits : WorkloadLimits} {duration parallel port : Int}
    (h : limits.iperf (.int duration) (.int parallel) (.int port) = .ok ()) :
    1 ≤ port ∧ port ≤ 65535 := by
  obtain ⟨_, -, h⟩ := bind_ok_iff.mp h
  obtain ⟨_, -, h⟩ := bind_ok_iff.mp h
  obtain ⟨_, hport, -⟩ := bind_ok_iff.mp h
  exact boundedInt_ok_iff.mp ⟨_, hport⟩

/-- The options of a stream as they are read. -/
def iperf3Options (server duration parallel port : PyStr) : List (PyStr × PyStr) :=
  [("-c".toList, server), ("-t".toList, duration), ("-P".toList, parallel), ("-p".toList, port),
    ("--json".toList, [])]

/-- The call of `iperf3` that a stream is. -/
def iperf3Call {server : PyStr} (hserver : '%' ∉ server) (duration parallel : PyStr) (port : Nat) :
    Iperf3Call (iperf3Args server duration parallel (intText port)) where
  options := iperf3Options server duration parallel (intText port)
  server := server
  port := port
  reads := by
    unfold Tool.reads iperf3Args
    rw [getopt_valued (by decide) (by decide), getopt_valued (by decide) (by decide),
      getopt_valued (by decide) (by decide), getopt_valued (by decide) (by decide),
      getopt_flag (by decide), getopt]
    rfl
  client := rfl
  noDevice := hserver
  given := rfl

/-- A stream within its bounds is run. -/
theorem iperf3Call_runs {server : PyStr} (hserver : '%' ∉ server) {duration parallel port : Nat}
    (hduration : 0 < duration ∧ duration ≤ 86400) (hparallel : 0 < parallel ∧ parallel ≤ 128) :
    (iperf3Call hserver (intText duration) (intText parallel) port).Runs where
  duration := counts_of_lookup hduration rfl
  parallel := counts_of_lookup hparallel rfl

/-- A URL that looks like an option has no scheme. -/
theorem head_of_httpPort {url : PyStr} {port : Int} (h : httpPort url = .ok port) :
    url.head? ≠ some '-' := by
  intro hdash
  obtain ⟨rest, rfl⟩ : ∃ rest, url = '-' :: rest := by
    cases url with
    | nil => cases hdash
    | cons c rest => exact ⟨rest, by rw [Option.some.inj hdash]⟩
  unfold httpPort at h
  obtain ⟨parsed, hparsed, h⟩ := bind_ok_iff.mp h
  obtain ⟨hscheme, -⟩ := seq_ok_iff.mp h
  have hscheme := not_or.mp (raiseIf_ok_iff.mp hscheme)
  apply hscheme.1
  have hsplit : ∀ s : PyStr, splitScheme ('-' :: s) = ([], '-' :: s) := by
    intro s
    unfold splitScheme
    simp only
    rw [if_neg]
    simp [before, isAlpha, inRange]
  have hparsed := orRaise_ok_iff.mp hparsed
  unfold urlsplit urlsplitWith at hparsed
  rw [List.dropWhile_cons_of_neg (by decide)] at hparsed
  simp only at hparsed
  rw [List.filter_cons_of_pos (by decide), hsplit] at hparsed
  simp only at hparsed
  split at hparsed
  · cases hparsed
    simp [httpSchemes]
  · cases hparsed

/-- The tuple of a load describes its connections, where the URL is one of the target. -/
theorem sessionVolume_describes (net : Network) {connections threads duration : Int}
    (url : PlainUrl g.dstIp)
    (h : g.sessionVolume host ts run url.text connections threads duration =
      .ok (stimulus, some cmd))
    (htarget : IsAddress g.dstIp a) (hsends : net.sends .wrk cmd f) :
    Describes stimulus.fiveTuple f := by
  obtain ⟨-, h⟩ := seq_ok_iff.mp h
  obtain ⟨port, hport, h⟩ := bind_ok_iff.mp h
  obtain ⟨rfl, hcmd⟩ := describe_ran h
  obtain ⟨-, -, binary, c, t, d, -, -, -, -, rfl⟩ := buildWrkCmd_ok_iff.mp hcmd
  have haims := net.wrk_only (wrkCall c t (d ++ ['s']) (head_of_httpPort hport)) hsends
  obtain ⟨name, port', hendpoint, hdst, dport, hdport, rfl⟩ := haims.dst
  obtain ⟨rfl, heq⟩ := net.endpoint_eq url hendpoint
  have hself : f.ip.dst = a := net.address _ _ _ htarget hdst
  refine ⟨nofun, ?_, ?_, nofun, ?_⟩
  · intro x hx
    cases hx
    rw [hself]
    exact htarget.text
  · intro x hx
    cases hx
    rw [show f.ip.proto = 6 from haims.proto]
    decide
  · intro x hx
    cases hx
    obtain ⟨ports, hports, rfl⟩ := Flow.mem_port.mp hdport
    exact ⟨ports, hports, (url.httpPort_text hport).trans heq.symm⟩

theorem throughput_describes (net : Network) {server : Option PyStr}
    {duration parallel port : Int}
    (h : g.throughput host ts run server duration parallel port = .ok (stimulus, some cmd))
    (htarget : ∀ name ∈ stimulus.fiveTuple.dstIp, IsAddress name a)
    (hsends : net.sends .iperf3 cmd f) : Describes stimulus.fiveTuple f := by
  obtain ⟨-, h⟩ := seq_ok_iff.mp h
  obtain ⟨rfl, hcmd⟩ := describe_ran h
  obtain ⟨hlimits, binary, t, n, p, -, -, -, hp, rfl⟩ := buildIperf3Cmd_ok_iff.mp hcmd
  obtain ⟨hlow, -⟩ := port_of_iperf hlimits
  obtain ⟨-, rfl⟩ := strInt_ok_iff.mp hp
  obtain ⟨port, rfl⟩ := Int.eq_ofNat_of_zero_le (by omega : 0 ≤ port)
  have hserver := htarget _ rfl
  have haims := net.iperf3_only
    (iperf3Call (hserver.notMem (by decide) (by decide)) t n port) hsends
  have hself : f.ip.dst = a := net.address _ _ _ hserver haims.dst
  refine ⟨nofun, ?_, ?_, nofun, ?_⟩
  · intro x hx
    rw [hself]
    exact (htarget x hx).text
  · intro x hx
    cases hx
    rw [show f.ip.proto = 6 from haims.proto]
    decide
  · intro x hx
    cases hx
    obtain ⟨dport, hdport, heq⟩ := haims.port
    obtain ⟨ports, hports, rfl⟩ := Flow.mem_port.mp hdport
    exact ⟨ports, hports, congrArg Int.ofNat heq⟩

end traffic

end SrxProbe.Generators
