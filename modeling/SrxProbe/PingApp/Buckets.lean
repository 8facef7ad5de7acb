import Mathlib.Algebra.Order.Floor.Ring
import Mathlib.Data.Rat.Floor
import SrxProbe.Lib.Py
import SrxProbe.Lib.Ring

/-!
# Ping history

The rolling buckets of the ping monitor: folding samples into them, reading a series
off them, saving them and loading them again. What the platform computes with measured
numbers is a parameter; clock readings are exact.
-/

namespace SrxProbe.PingApp

open SrxProbe.Lib

/-! ## Settings -/

/-- `BUCKETS`, from `BUCKET_SEC` and `RETAIN_DAYS`. -/
def bucketCount (bucketSec retainDays : Int) : Int :=
  let width := bucketSec.fdiv 60
  (60 * 24 * retainDays).fdiv (if width = 0 then 1 else width)

/-- The settings of the history. A negative `BUCKETS` is no length for a deque, and the
module does not load. -/
structure Settings where
  bucketSec : Int
  retainDays : Int
  count_nonneg : 0 ≤ bucketCount bucketSec retainDays

/-- `BUCKETS`, as the length of a deque. -/
def Settings.capacity (cfg : Settings) : Nat := (bucketCount cfg.bucketSec cfg.retainDays).toNat

/-- The arithmetic of measured numbers. -/
structure Arith (ν : Type) where
  zero : ν
  add : ν → ν → ν
  lt : ν → ν → Bool
  /-- `x / n` -/
  divBy : ν → Nat → ν
  /-- `100.0 * (sent - recv) / sent` -/
  lossPct : Nat → Nat → ν

variable {ν : Type}

namespace Arith

/-- `min(a, b)`. -/
def min (ops : Arith ν) (a b : ν) : ν := if ops.lt b a then b else a

/-- `max(a, b)`. -/
def max (ops : Arith ν) (a b : ν) : ν := if ops.lt a b then b else a

end Arith

/-- Measured numbers as integers. -/
def intArith : Arith Int :=
  ⟨0, (· + ·), fun a b => a < b, fun x n => x / n, fun sent recv => 100 * (sent - recv : Int) / sent⟩

/-! ## Buckets -/

/-- What is measured. -/
inductive Kind
  | default
  | big
  | wifi
  deriving DecidableEq, Repr

/-- A bucket. -/
structure Bucket (ν : Type) where
  id : Int
  sent : Nat
  recv : Nat
  sum : ν
  min : Option ν
  max : Option ν
  deriving DecidableEq, Repr

namespace Bucket

/-- A bucket without samples. -/
def new (ops : Arith ν) (id : Int) : Bucket ν := ⟨id, 0, 0, ops.zero, none, none⟩

/-- The sample of `add_to_bucket`, on the bucket it belongs to. -/
def fold (ops : Arith ν) (b : Bucket ν) (rtt : Option ν) : Bucket ν :=
  let b := { b with sent := b.sent + 1 }
  match rtt with
  | none => b
  | some rtt =>
      { b with
        recv := b.recv + 1
        sum := ops.add b.sum rtt
        min := some (match b.min with
          | none => rtt
          | some m => ops.min m rtt)
        max := some (match b.max with
          | none => rtt
          | some m => ops.max m rtt) }

end Bucket

/-- `stats`; `_last_save` is there after the first periodic save. -/
structure Stats where
  sent : Nat
  recv : Nat
  bigSent : Nat
  bigRecv : Nat
  bigErr : PyStr
  started : Time
  lastSave : Option Time
  deriving DecidableEq, Repr

/-- `buckets`, `cur` and `stats`. -/
structure State (cfg : Settings) (ν : Type) where
  buckets : Kind → Ring (Bucket ν) cfg.capacity
  cur : Kind → Option (Bucket ν)
  stats : Stats

variable {cfg : Settings}

/-- `int(ts // BUCKET_SEC) * BUCKET_SEC`. -/
def bucketStart (cfg : Settings) (ts : Time) : Int := ⌊ts / cfg.bucketSec⌋ * cfg.bucketSec

/-- Later samples belong to later buckets, whatever the width of a bucket. -/
theorem bucketStart_mono {ts ts' : Time} (h : ts ≤ ts') :
    bucketStart cfg ts ≤ bucketStart cfg ts' := by
  unfold bucketStart
  rcases lt_trichotomy cfg.bucketSec 0 with hneg | hzero | hpos
  · have hdiv : ts' / (cfg.bucketSec : Rat) ≤ ts / cfg.bucketSec :=
      div_le_div_of_nonpos_of_le (by exact_mod_cast hneg.le) h
    exact Int.mul_le_mul_of_nonpos_right (Int.floor_le_floor hdiv) hneg.le
  · rw [hzero, mul_zero, mul_zero]
  · have hdiv : ts / (cfg.bucketSec : Rat) ≤ ts' / cfg.bucketSec :=
      div_le_div_of_nonneg_right h (by exact_mod_cast hpos.le)
    exact Int.mul_le_mul_of_nonneg_right (Int.floor_le_floor hdiv) hpos.le

/-- `_bucket_id`; `none` for the division by zero. -/
def bucketId (cfg : Settings) (ts : Time) : Option Int :=
  if cfg.bucketSec = 0 then none else some (bucketStart cfg ts)

namespace State

/-- The module's state when it is loaded. -/
def start (cfg : Settings) (ν : Type) (now : Time) : State cfg ν where
  buckets := fun _ => .empty
  cur := fun _ => none
  stats := ⟨0, 0, 0, 0, [], now, none⟩

/-- `buckets[kind]`, with the current bucket closed if it is another than `bid`. -/
def roll (s : State cfg ν) (kind : Kind) (bid : Int) : Ring (Bucket ν) cfg.capacity :=
  match s.cur kind with
  | none => s.buckets kind
  | some b => if b.id = bid then s.buckets kind else (s.buckets kind).push b

/-- The bucket a sample goes to. -/
def openBucket (ops : Arith ν) (s : State cfg ν) (kind : Kind) (bid : Int) : Bucket ν :=
  match s.cur kind with
  | none => .new ops bid
  | some b => if b.id = bid then b else .new ops bid

/-- `add_to_bucket`; `none` where it raises. -/
def addToBucket (ops : Arith ν) (s : State cfg ν) (kind : Kind) (ts : Time) (rtt : Option ν) :
    Option (State cfg ν) := do
  let bid ← bucketId cfg ts
  return { s with
    buckets := update s.buckets kind (s.roll kind bid)
    cur := update s.cur kind (some ((s.openBucket ops kind bid).fold ops rtt)) }

end State

theorem addToBucket_eq {ops : Arith ν} {s : State cfg ν} {kind : Kind} {ts : Time}
    {rtt : Option ν} (hsec : cfg.bucketSec ≠ 0) :
    s.addToBucket ops kind ts rtt = some { s with
      buckets := update s.buckets kind (s.roll kind (bucketStart cfg ts))
      cur := update s.cur kind
        (some ((s.openBucket ops kind (bucketStart cfg ts)).fold ops rtt)) } := by
  rw [State.addToBucket, bucketId, if_neg hsec]
  rfl

namespace State

/-- The locked block of `worker`. Where `add_to_bucket` raises, the counters stay
counted. -/
def recordPing (ops : Arith ν) (s : State cfg ν) (now : Time) (rtt brtt : Option ν)
    (berr : PyStr) : State cfg ν :=
  let s := { s with stats := { s.stats with
    sent := s.stats.sent + 1
    recv := s.stats.recv + (if rtt.isSome then 1 else 0)
    bigSent := s.stats.bigSent + 1
    bigRecv := s.stats.bigRecv + (if brtt.isSome then 1 else 0)
    bigErr := berr } }
  match s.addToBucket ops .default now rtt with
  | none => s
  | some s =>
      match s.addToBucket ops .big now brtt with
      | none => s
      | some s => s

/-- `record_wifi` on a link snapshot with a signal strength or none, and
`record_wifi_error` with none. -/
def recordWifi (ops : Arith ν) (s : State cfg ν) (now : Time) (signal : Option ν) :
    State cfg ν :=
  match s.addToBucket ops .wifi now signal with
  | none => s
  | some s => s

end State

/-- A sample: a turn of `worker`, or a snapshot of the wireless link. -/
inductive Sample (ν : Type)
  | ping (now : Time) (rtt brtt : Option ν) (berr : PyStr)
  | wifi (now : Time) (signal : Option ν)

/-- The clock reading of a sample. -/
def Sample.time : Sample ν → Time
  | .ping now _ _ _ => now
  | .wifi now _ => now

/-- What a sample does to the state. -/
def State.record (ops : Arith ν) (s : State cfg ν) : Sample ν → State cfg ν
  | .ping now rtt brtt berr => s.recordPing ops now rtt brtt berr
  | .wifi now signal => s.recordWifi ops now signal

/-- `stats["_last_save"] = now`, before the periodic save of `worker`. -/
def State.noteSave (s : State cfg ν) (now : Time) : State cfg ν :=
  { s with stats := { s.stats with lastSave := some now } }

/-! ## Reading a series -/

/-- An item of a series. -/
structure Point (ν : Type) where
  t : Int
  avg : Option ν
  min : Option ν
  max : Option ν
  sent : Nat
  recv : Nat
  lossPct : ν
  deriving DecidableEq, Repr

/-- The point of a bucket. -/
def Bucket.point (ops : Arith ν) (b : Bucket ν) : Point ν where
  t := b.id
  avg := if b.recv = 0 then none else some (ops.divBy b.sum b.recv)
  min := b.min
  max := b.max
  sent := b.sent
  recv := b.recv
  lossPct := if b.sent = 0 then ops.zero else ops.lossPct b.sent b.recv

/-- The closed buckets of a kind and the current one, oldest first. -/
def State.all (s : State cfg ν) (kind : Kind) : List (Bucket ν) :=
  (s.buckets kind).items ++ (s.cur kind).toList

/-- `bucket_series(kind, hours)`, when the clock reads `now`. -/
def State.bucketSeries (ops : Arith ν) (s : State cfg ν) (kind : Kind) (hours : Rat)
    (now : Time) : List (Point ν) :=
  let cutoff := now - hours * 3600
  ((s.all kind).filter fun b => ¬ (b.id : Rat) < cutoff).map (Bucket.point ops)

/-! ## Saving and loading -/

/-- What `save_state` writes. -/
structure Saved (ν : Type) where
  buckets : Kind → List (Bucket ν)
  cur : Kind → Option (Bucket ν)
  stats : Stats

/-- `save_state`, when no sample is recorded meanwhile. -/
def State.save (s : State cfg ν) : Saved ν where
  buckets := fun kind => (s.buckets kind).items
  cur := s.cur
  stats := s.stats

/-- The oldest `id` that `load_state` takes. -/
def retainFloor (cfg : Settings) (now : Time) : Rat := now - cfg.retainDays * 24 * 3600

/-- `load_state`, on the state of a module just loaded. Of the statistics it takes those
that the module has, and a new one has no `_last_save`. -/
def State.load (s : State cfg ν) (d : Saved ν) (now : Time) : State cfg ν where
  buckets := fun kind =>
    ((d.buckets kind).filter fun b => retainFloor cfg now ≤ b.id).foldl Ring.push (s.buckets kind)
  cur := d.cur
  stats := { d.stats with lastSave := if s.stats.lastSave.isSome then d.stats.lastSave else none }

/-- The process stops after a completed save and starts again. -/
def State.restart (s : State cfg ν) (now : Time) : State cfg ν :=
  (State.start cfg ν now).load s.save now

end SrxProbe.PingApp
