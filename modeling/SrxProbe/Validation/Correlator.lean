import Mathlib.Algebra.Order.Group.Unbundled.Abs
import Mathlib.Algebra.Order.Ring.Rat
import SrxProbe.Lib.Dict
import SrxProbe.Lib.Iterable
import SrxProbe.Lib.Py

/-!
# The correlation engine

Matching stimuli to telemetry by type, 5-tuple and time, and the verdicts built
from the matches and from an optional independent capture.
-/

namespace SrxProbe.Validation

open SrxProbe.Lib

/-- What the engine takes from the platform: the rounding of a float operation
on finite numbers (an overflow goes to a number beyond every float), `str.upper`,
and whether `ipaddress.ip_address` accepts a string. Nothing is assumed of them. -/
structure Platform where
  round : Rat → Rat
  upper : PyStr → PyStr
  ipAddress : PyStr → Bool

/-- A float of epoch seconds; `nonfinite` stands for the infinities and NaN. -/
inductive Timestamp
  | finite (seconds : Rat)
  | nonfinite
  deriving DecidableEq, Repr

/-- A value in the `fields` of an event. -/
inductive FieldValue
  | none
  | bool (value : Bool)
  | number (value : Rat)
  | str (value : PyStr)
  deriving DecidableEq, Repr

structure FiveTuple where
  srcIp : Option PyStr
  dstIp : Option PyStr
  protocol : Option PyStr
  srcPort : Option Int
  dstPort : Option Int
  deriving DecidableEq, Repr

structure Stimulus where
  fiveTuple : FiveTuple
  timestamp : Timestamp
  expectedEventType : PyStr
  payloadClass : PyStr
  detectionTarget : PyStr
  expectedFields : List PyStr
  deriving DecidableEq, Repr

structure TelemetryEvent where
  eventType : PyStr
  fiveTuple : FiveTuple
  timestamp : Timestamp
  fields : Dict PyStr FieldValue
  raw : PyStr

/-! ## Matching -/

def FiveTuple.normalized (p : Platform) (a : FiveTuple) : FiveTuple :=
  { a with protocol := a.protocol.map p.upper }

/-- `_value_compatible`: `None` is a wildcard. -/
def valueCompatible {α : Type} [DecidableEq α] : Option α → Option α → Bool
  | none, _ => true
  | _, none => true
  | some a, some b => a = b

def fiveTupleMatches (p : Platform) (a b : FiveTuple) : Bool :=
  let a := a.normalized p
  let b := b.normalized p
  valueCompatible a.srcIp b.srcIp && valueCompatible a.dstIp b.dstIp &&
    valueCompatible a.protocol b.protocol && valueCompatible a.srcPort b.srcPort &&
    valueCompatible a.dstPort b.dstPort

def observationMatches (p : Platform) (stimulus observed : FiveTuple) : Bool :=
  let addresses := [observed.srcIp, observed.dstIp].filterMap id
  if addresses.isEmpty then false
  else if addresses.all p.ipAddress then fiveTupleMatches p stimulus observed
  else false

def withinWindow (p : Platform) (stimulusTime eventTime : Timestamp) (windowS skewS : Rat) : Bool :=
  match stimulusTime, eventTime with
  | .finite stimulusTime, .finite eventTime =>
      let lower := p.round (stimulusTime - skewS)
      let upper := p.round (p.round (stimulusTime + windowS) + skewS)
      lower ≤ eventTime && eventTime ≤ upper
  | _, _ => false

/-- `abs(ev.timestamp - stimulus.timestamp)`; both are finite for a candidate. -/
def distance (p : Platform) (stimulus : Stimulus) (ev : TelemetryEvent) : Rat :=
  match ev.timestamp, stimulus.timestamp with
  | .finite eventTime, .finite stimulusTime => |p.round (eventTime - stimulusTime)|
  | _, _ => 0

/-! ## Verdicts -/

inductive Detection
  | yes
  | no
  | inconclusive
  deriving DecidableEq, Repr

structure Verdict where
  detectionTarget : PyStr
  eventType : PyStr
  detected : Detection
  logged : Detection
  fieldsComplete : Detection
  matchedEvent : Option TelemetryEvent
  missingFields : List PyStr
  note : PyStr

def Verdict.passed (v : Verdict) : Bool :=
  v.detected = .yes && v.logged = .yes && v.fieldsComplete = .yes

structure CoverageMatrix where
  rows : List Verdict

def CoverageMatrix.passed (m : CoverageMatrix) : Bool :=
  m.rows.all Verdict.passed && !m.rows.isEmpty

/-- `field_complete`: whether all required fields are there, and which are not. -/
def fieldComplete (event : TelemetryEvent) (requiredFields : List PyStr) : Bool × List PyStr :=
  let missing := requiredFields.filter fun f =>
    match event.fields.get? f with
    | none => true
    | some .none => true
    | some (.str []) => true
    | some _ => false
  (missing.isEmpty, missing)

/-- A correlator; its constructor refuses any other window and skew. -/
structure Correlator where
  windowS : Rat
  skewS : Rat
  requireGroundTruth : Bool
  window_nonneg : 0 ≤ windowS
  skew_nonneg : 0 ≤ skewS

namespace Correlator

def new (windowS skewS : Timestamp) (requireGroundTruth : Bool) : Except PyErr Correlator :=
  match windowS, skewS with
  | .finite windowS, .finite skewS =>
      if h : 0 ≤ windowS ∧ 0 ≤ skewS then .ok ⟨windowS, skewS, requireGroundTruth, h.1, h.2⟩
      else .error (.valueError "Correlation window and skew must be finite and non-negative".toList)
  | _, _ =>
      .error (.valueError "Correlation window and skew must be finite and non-negative".toList)

/-- The condition on an event in `candidates`. -/
def isCandidate (p : Platform) (c : Correlator) (stimulus : Stimulus) (ev : TelemetryEvent) :
    Bool :=
  ev.eventType = stimulus.expectedEventType &&
    observationMatches p stimulus.fiveTuple ev.fiveTuple &&
    withinWindow p stimulus.timestamp ev.timestamp c.windowS c.skewS

def candidates (p : Platform) (c : Correlator) (stimulus : Stimulus)
    (events : List TelemetryEvent) : List TelemetryEvent :=
  sortBy (distance p stimulus) (events.filter (c.isCandidate p stimulus))

def correlate (p : Platform) (c : Correlator) (stimulus : Stimulus)
    (events : List TelemetryEvent) : Option TelemetryEvent :=
  (c.candidates p stimulus events).head?

/-- `saw_ground_truth`, with what it leaves of the capture. -/
def sawGroundTruth (p : Platform) (stimulus : Stimulus) :
    Option (Iterable FiveTuple) → Option Bool × Option (Iterable FiveTuple)
  | none => (none, none)
  | some groundTruth =>
      let (saw, rest) := groundTruth.any (observationMatches p stimulus.fiveTuple)
      (some saw, some rest)

/-- What a verdict says about the evidence: `note`, by the capture, whether an event
matched, and the strict flag. -/
def note (gt : Option Bool) (matched strict : Bool) : PyStr :=
  match gt with
  | some true =>
      ("Independent capture contains a compatible tuple; this supports " ++
        "traffic observation, not proof of a security action.").toList ++
      if matched then []
      else (" Expected telemetry not found: possible logging gap; " ++
        "verify capture scope and policy.").toList
  | some false =>
      ("No compatible tuple in independent egress capture: INCONCLUSIVE. " ++
        "Absence does not establish non-arrival or lack of security action " ++
        "(blocking, capture loss, timing, NAT or path differences are possible).").toList
  | none =>
      if matched && !strict then
        ("Observation inferred from telemetry only; " ++
          "no independent evidence or proof of security action.").toList
      else "Independent evidence unavailable; observation is INCONCLUSIVE.".toList

/-- What `evaluate` returns, and what it leaves of its iterable arguments. -/
structure Evaluation where
  verdict : Verdict
  events : Iterable TelemetryEvent
  groundTruth : Option (Iterable FiveTuple)

def evaluate (p : Platform) (c : Correlator) (stimulus : Stimulus)
    (events : Iterable TelemetryEvent) (groundTruth : Option (Iterable FiveTuple)) : Evaluation :=
  let (evs, restEvents) := events.toList
  let matched := c.correlate p stimulus evs
  let (gt, restTruth) := sawGroundTruth p stimulus groundTruth
  let logged := if matched.isSome then Detection.yes else .no
  let detected :=
    if gt = some true then Detection.yes
    else if gt = none ∧ matched.isSome ∧ !c.requireGroundTruth then .yes
    else .inconclusive
  let (fieldsComplete, missing) :=
    match matched with
    | none => (Detection.inconclusive, [])
    | some ev =>
        let (complete, missing) := fieldComplete ev stimulus.expectedFields
        (if complete then .yes else .no, missing)
  -- absence from the capture takes the `NO` back
  let logged := if gt = some false ∧ matched.isNone then Detection.inconclusive else logged
  { verdict :=
      { detectionTarget :=
          if stimulus.detectionTarget.isEmpty then stimulus.payloadClass
          else stimulus.detectionTarget
        eventType := stimulus.expectedEventType
        detected := detected
        logged := logged
        fieldsComplete := fieldsComplete
        matchedEvent := matched
        missingFields := missing
        note := note gt matched.isSome c.requireGroundTruth }
    events := restEvents
    groundTruth := restTruth }

/-- `build_matrix`: the telemetry and the capture are read once, before the loop
over the stimuli. -/
def buildMatrix (p : Platform) (c : Correlator) (stimuli : Iterable Stimulus)
    (events : Iterable TelemetryEvent) (groundTruth : Option (Iterable FiveTuple)) :
    CoverageMatrix :=
  let (evs, _) := events.toList
  let gt := groundTruth.map fun it => it.toList.1
  let row stim := (c.evaluate p stim (.ofList evs) (gt.map .ofList)).verdict
  ⟨stimuli.toList.1.map row⟩

end Correlator

end SrxProbe.Validation
