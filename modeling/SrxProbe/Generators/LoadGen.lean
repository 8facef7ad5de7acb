import SrxProbe.Lib.Url
import SrxProbe.Lib.Value

/-!
# Ceilings of the load generators

The bounds that every numeric control is checked against before anything is sent:
the checked integer, the configurable ceilings with the rules of each workload, and
the port of a load URL.
-/

namespace SrxProbe.Generators

open SrxProbe.Lib

/-- `bounded_int`. Only an `int` passes, not a `bool`. -/
def boundedInt (name : PyStr) (value : PyValue) (maximum minimum : Int) : Except PyErr Int :=
  let error : PyErr := .valueError (name ++ " must be an integer in [".toList ++ intText minimum ++
    ", ".toList ++ intText maximum ++ "]".toList)
  match value with
  | .int n => if minimum ≤ n ∧ n ≤ maximum then .ok n else .error error
  | _ => .error error

/-- `WorkloadLimits`: per-workload ceilings, as `__post_init__` lets them be. -/
structure WorkloadLimits where
  maxPackets : Int
  maxRatePps : Int
  maxPorts : Int
  maxDurationS : Int
  maxConnections : Int
  maxThreads : Int
  maxParallel : Int
  maxFragments : Int
  maxWorkloads : Int
  positive : ∀ value ∈ [maxPackets, maxRatePps, maxPorts, maxDurationS, maxConnections,
    maxThreads, maxParallel, maxFragments, maxWorkloads], 0 < value
  ports : maxPorts ≤ 65535
  deriving Repr

/-- `DEFAULT_LIMITS`. -/
def defaultLimits : WorkloadLimits where
  maxPackets := 10000
  maxRatePps := 1000
  maxPorts := 4096
  maxDurationS := 300
  maxConnections := 10000
  maxThreads := 64
  maxParallel := 32
  maxFragments := 64
  maxWorkloads := 32
  positive := by decide
  ports := by decide

namespace WorkloadLimits

/-- The field names, in order. -/
def fields : List PyStr :=
  ["max_packets".toList, "max_rate_pps".toList, "max_ports".toList, "max_duration_s".toList,
    "max_connections".toList, "max_threads".toList, "max_parallel".toList,
    "max_fragments".toList, "max_workloads".toList]

/-- The values of the fields, in order. -/
def values (limits : WorkloadLimits) : List Int :=
  [limits.maxPackets, limits.maxRatePps, limits.maxPorts, limits.maxDurationS,
    limits.maxConnections, limits.maxThreads, limits.maxParallel, limits.maxFragments,
    limits.maxWorkloads]

/-- `WorkloadLimits(**values)`, the values in the order of the fields. -/
def ofValues (values : List PyValue) : Except PyErr WorkloadLimits :=
  match values with
  | [.int packets, .int rate, .int ports, .int duration, .int connections, .int threads,
      .int parallel, .int fragments, .int workloads] =>
      let numbers := [packets, rate, ports, duration, connections, threads, parallel,
        fragments, workloads]
      if hpos : ∀ value ∈ numbers, 0 < value then
        if hports : ports ≤ 65535 then
          .ok ⟨packets, rate, ports, duration, connections, threads, parallel, fragments,
            workloads, hpos, hports⟩
        else .error (.valueError "max_ports must be an integer in [1, 65535]".toList)
      else
        let bad := (fields.zip numbers).find? fun entry => entry.2 ≤ 0
        .error (.valueError ((bad.map Prod.fst).getD [] ++
          " must be a finite positive integer".toList))
  | _ => .error .attributeError

/-- `limits.wrk`. -/
def wrk (limits : WorkloadLimits) (connections threads duration : PyValue) :
    Except PyErr Unit := do
  let n ← boundedInt "connections".toList connections limits.maxConnections 1
  let _ ← boundedInt "threads".toList threads (min limits.maxThreads n) 1
  let _ ← boundedInt "duration_s".toList duration limits.maxDurationS 1

/-- `limits.iperf`. -/
def iperf (limits : WorkloadLimits) (duration parallel port : PyValue) :
    Except PyErr Unit := do
  let _ ← boundedInt "duration_s".toList duration limits.maxDurationS 1
  let _ ← boundedInt "parallel".toList parallel limits.maxParallel 1
  let _ ← boundedInt "port".toList port 65535 1

/-- `limits.scan`. -/
def scan (limits : WorkloadLimits) (maxPorts : PyValue) : Except PyErr Unit := do
  let _ ← boundedInt "max_ports".toList maxPorts limits.maxPorts 1

/-- The pause between two packets, in microseconds: an integer ceiling. -/
def intervalUs (rate : Int) : Int := (1000000 + rate - 1) / rate

/-- `limits.flood`. -/
def flood (limits : WorkloadLimits) (floodType port count rate : PyValue) :
    Except PyErr Unit := do
  raiseIf (floodType.hashable = false) .other
  raiseIf (["syn".toList, "icmp".toList, "udp".toList].all fun name => !floodType.isStr name)
    (.valueError "flood_type must be syn|icmp|udp".toList)
  let _ ← boundedInt "port".toList port 65535 (if floodType.isStr "icmp".toList then 0 else 1)
  let packets ← boundedInt "count".toList count limits.maxPackets 1
  let pps ← boundedInt "rate_pps".toList rate limits.maxRatePps 1
  raiseIf (packets * intervalUs pps > limits.maxDurationS * 1000000)
    (.valueError "paced flood exceeds max_duration_s".toList)

end WorkloadLimits

/-- `LoadGenerator._http_port`. -/
def httpPort (url : PyStr) : Except PyErr Int := do
  let parsed ← orRaise (urlsplit url) .stdValueError
  raiseIf (parsed.scheme ∉ httpSchemes ∨ parsed.hostname = [])
    (.valueError "url must be an absolute HTTP(S) URL".toList)
  let port ← orRaise parsed.port .stdValueError
  boundedInt "URL port".toList
    (.int (port.getD (if parsed.scheme = "https".toList then 443 else 80))) 65535 1

theorem boundedInt_ok {name : PyStr} {n maximum minimum : Int} (hmin : minimum ≤ n)
    (hmax : n ≤ maximum) : boundedInt name (.int n) maximum minimum = .ok n :=
  if_pos ⟨hmin, hmax⟩

theorem boundedInt_ok_iff {name : PyStr} {n maximum minimum : Int} :
    (∃ m, boundedInt name (.int n) maximum minimum = .ok m) ↔ minimum ≤ n ∧ n ≤ maximum := by
  constructor
  · rintro ⟨m, h⟩
    unfold boundedInt at h
    simp only at h
    split at h
    · rename_i hbounds
      exact hbounds
    · cases h
  · rintro ⟨hmin, hmax⟩
    exact ⟨n, boundedInt_ok hmin hmax⟩

theorem boundedInt_error {name : PyStr} {value : PyValue} {maximum minimum : Int} {e : PyErr}
    (h : boundedInt name value maximum minimum = .error e) :
    ∃ message, e = .valueError message := by
  unfold boundedInt at h
  cases value with
  | int n =>
      simp only at h
      split at h
      · cases h
      · cases h
        exact ⟨_, rfl⟩
  | _ =>
      cases h
      exact ⟨_, rfl⟩

/-- A check in front of other calls. -/
theorem boundedInt_bind_ok_iff {α : Type} {name : PyStr} {n maximum minimum : Int}
    {f : Int → Except PyErr α} {v : α} :
    (boundedInt name (.int n) maximum minimum >>= f) = .ok v ↔
      (minimum ≤ n ∧ n ≤ maximum) ∧ f n = .ok v := by
  by_cases hbounds : minimum ≤ n ∧ n ≤ maximum
  · rw [boundedInt_ok hbounds.1 hbounds.2, ok_bind]
    exact (and_iff_right hbounds).symm
  · constructor
    · intro h
      obtain ⟨m, hm, -⟩ := bind_ok_iff.mp h
      exact absurd (boundedInt_ok_iff.mp ⟨m, hm⟩) hbounds
    · exact fun h => absurd h.1 hbounds

end SrxProbe.Generators
