import SrxProbe.Lib.Iterable
import SrxProbe.Lib.Reduce
import SrxProbe.PingApp.Buckets

/-!
# Summaries of a ping series

The summary of a period and the downsampled series of a chart. In exact arithmetic
the closed buckets and the current one account for every sample, and neither the
summary nor the downsampling loses what they counted.
-/

namespace SrxProbe.PingApp

open SrxProbe.Lib

variable {ν : Type} {cfg : Settings}

/-! ## Summaries -/

/-- The arithmetic of a summary. -/
structure SummaryArith (ν : Type) extends Arith ν where
  /-- `100.0 * recv / sent` -/
  availability : Nat → Nat → ν

/-- `sum(values) / len(values) if values else None`. -/
def Arith.mean (ops : Arith ν) (values : List ν) : Option ν :=
  if values.isEmpty then none
  else some (ops.divBy (values.foldl ops.add ops.zero) values.length)

/-- What `downsample_series` makes of a chunk, which is not empty. -/
def mergePoints (ops : Arith ν) (first : Point ν) (others : List (Point ν)) : Point ν :=
  let chunk := first :: others
  let sent := (chunk.map Point.sent).sum
  let recv := (chunk.map Point.recv).sum
  { t := first.t
    avg := ops.mean (chunk.filterMap Point.avg)
    min := reduce ops.min (chunk.filterMap Point.min)
    max := reduce ops.max (chunk.filterMap Point.max)
    sent := sent
    recv := recv
    lossPct := if sent = 0 then ops.zero else ops.lossPct sent recv }

/-- The loop of `downsample_series`, over chunks of `factor` points. A chunk takes a
point, so the length of the series is fuel enough. -/
def mergeChunks (ops : Arith ν) (factor : Nat) : Nat → List (Point ν) → List (Point ν)
  | 0, _ => []
  | _, [] => []
  | n + 1, first :: ser =>
      mergePoints ops first (ser.take (factor - 1)) ::
        mergeChunks ops factor n (ser.drop (factor - 1))

def downsampleSeries (ops : Arith ν) (ser : List (Point ν)) (factor : Int) : List (Point ν) :=
  if factor ≤ 1 || ser.isEmpty then ser else mergeChunks ops factor.toNat ser.length ser

structure DaySummary (ν : Type) where
  sent : Nat
  recv : Nat
  lost : Int
  lossPct : ν
  avg : Option ν
  min : Option ν
  max : Option ν
  availability : ν
  outageMin : Nat
  windowMin : Nat
  hours : Rat
  series : List (Point ν)

/-- `day_summary(kind, hours, downsample)`, when the clock reads `now`. -/
def State.daySummary (ops : SummaryArith ν) (s : State cfg ν) (kind : Kind) (hours : Rat)
    (downsample : Int) (now : Time) : DaySummary ν :=
  let ser := s.bucketSeries ops.toArith kind hours now
  let sent := (ser.map Point.sent).sum
  let recv := (ser.map Point.recv).sum
  { sent := sent
    recv := recv
    lost := (sent : Int) - recv
    lossPct := if sent = 0 then ops.zero else ops.lossPct sent recv
    avg := ops.mean (ser.filterMap Point.avg)
    min := reduce ops.min (ser.filterMap Point.min)
    max := reduce ops.max (ser.filterMap Point.max)
    availability := if sent = 0 then ops.zero else ops.availability sent recv
    outageMin := (ser.filter fun b => b.recv = 0 && b.sent > 0).length
    windowMin := ser.length
    hours := hours
    series := downsampleSeries ops.toArith ser downsample }

/-- Exact arithmetic. -/
def exact : SummaryArith Rat where
  zero := 0
  add := (· + ·)
  lt := fun x y => x < y
  divBy := fun x n => x / n
  lossPct := fun sent recv => 100 * ((sent : Rat) - recv) / sent
  availability := fun sent recv => 100 * (recv : Rat) / sent

theorem exact_min : exact.toArith.min = min := by
  funext x y
  rw [min_comm, min_def_lt]
  show (if decide (y < x) = true then y else x) = _
  simp

theorem exact_max : exact.toArith.max = max := by
  funext x y
  rw [max_def_lt]
  show (if decide (x < y) = true then y else x) = _
  simp

/-! ## Downsampling -/

/-- Both series have the same counts and extremes. -/
structure SameTotals (ser ser' : List (Point Rat)) : Prop where
  sent : (ser'.map Point.sent).sum = (ser.map Point.sent).sum
  recv : (ser'.map Point.recv).sum = (ser.map Point.recv).sum
  least : (ser'.filterMap Point.min).min? = (ser.filterMap Point.min).min?
  greatest : (ser'.filterMap Point.max).max? = (ser.filterMap Point.max).max?

theorem SameTotals.refl (ser : List (Point Rat)) : SameTotals ser ser := ⟨rfl, rfl, rfl, rfl⟩

theorem mergePoints_min (first : Point Rat) (others : List (Point Rat)) :
    (mergePoints exact.toArith first others).min =
      ((first :: others).filterMap Point.min).min? := by
  rw [← reduce_min, ← exact_min]
  rfl

theorem mergePoints_max (first : Point Rat) (others : List (Point Rat)) :
    (mergePoints exact.toArith first others).max =
      ((first :: others).filterMap Point.max).max? := by
  rw [← reduce_max, ← exact_max]
  rfl

/-- A chunk is replaced by one point. -/
theorem SameTotals.merge (first : Point Rat) (others : List (Point Rat))
    {rest rest' : List (Point Rat)} (h : SameTotals rest rest') :
    SameTotals (first :: others ++ rest) (mergePoints exact.toArith first others :: rest') := by
  refine ⟨?_, ?_, ?_, ?_⟩
  · rw [List.map_cons, List.sum_cons, h.sent, List.map_append, List.sum_append]
    rfl
  · rw [List.map_cons, List.sum_cons, h.recv, List.map_append, List.sum_append]
    rfl
  · rw [List.filterMap_append, ← reduce_min, ← reduce_min, reduce_append, reduce_filterMap_cons,
      mergePoints_min, reduce_min, reduce_min, reduce_min, h.least]
  · rw [List.filterMap_append, ← reduce_max, ← reduce_max, reduce_append, reduce_filterMap_cons,
      mergePoints_max, reduce_max, reduce_max, reduce_max, h.greatest]

theorem sameTotals_mergeChunks (factor : Nat) {n : Nat} {ser : List (Point Rat)}
    (h : ser.length ≤ n) : SameTotals ser (mergeChunks exact.toArith factor n ser) := by
  induction n generalizing ser with
  | zero =>
      rw [List.length_eq_zero_iff.mp (Nat.le_zero.mp h)]
      exact SameTotals.refl _
  | succ n ih =>
      cases ser with
      | nil => exact SameTotals.refl _
      | cons first ser =>
          have hlen : (ser.drop (factor - 1)).length ≤ n := by
            rw [List.length_cons] at h
            rw [List.length_drop]
            omega
          have hstep := (ih hlen).merge first (ser.take (factor - 1))
          rw [List.cons_append, List.take_append_drop] at hstep
          exact hstep

/-- Downsampling by any factor keeps the counts and the extremes. -/
theorem sameTotals_downsampleSeries (ser : List (Point Rat)) (factor : Int) :
    SameTotals ser (downsampleSeries exact.toArith ser factor) := by
  unfold downsampleSeries
  split
  · exact SameTotals.refl _
  · exact sameTotals_mergeChunks _ (Nat.le_refl _)

/-! ## Samples and the buckets that account for them -/

/-- The arguments of a call of `add_to_bucket`, of one kind. -/
structure Reading (ν : Type) where
  ts : Time
  rtt : Option ν
  deriving DecidableEq, Repr

/-- Calls of `add_to_bucket` one after the other, `none` if one of them raises. -/
def State.addAll (ops : Arith ν) (s : State cfg ν) (kind : Kind) (calls : List (Reading ν)) :
    Option (State cfg ν) :=
  calls.foldlM (fun s c => s.addToBucket ops kind c.ts c.rtt) s

/-- The maximal runs of consecutive samples of one bucket. -/
def runs (cfg : Settings) (calls : List (Reading ν)) : List (List (Reading ν)) :=
  runsBy (fun c => bucketStart cfg c.ts) calls

/-- The answers among samples. -/
def replies (calls : List (Reading ν)) : List ν := calls.filterMap Reading.rtt

/-- A bucket has the counts, the sum and the extremes of a run of samples. -/
structure Accounts (cfg : Settings) (b : Bucket Rat) (run : List (Reading Rat)) : Prop where
  nonempty : run ≠ []
  id : ∀ c ∈ run, bucketStart cfg c.ts = b.id
  sent : b.sent = run.length
  recv : b.recv = (replies run).length
  sum : b.sum = (replies run).sum
  min : b.min = (replies run).min?
  max : b.max = (replies run).max?

section accounts

variable {b : Bucket Rat} {run : List (Reading Rat)} {c : Reading Rat}

theorem replies_append (calls calls' : List (Reading ν)) :
    replies (calls ++ calls') = replies calls ++ replies calls' := List.filterMap_append

theorem length_replies_le (calls : List (Reading ν)) : (replies calls).length ≤ calls.length :=
  List.length_filterMap_le _ _

theorem fold_min (ops : Arith ν) (b : Bucket ν) (rtt : ν) :
    (b.fold ops (some rtt)).min = b.min.merge ops.min (some rtt) := by
  obtain ⟨id, sent, recv, sum, min, max⟩ := b
  cases min <;> rfl

theorem fold_max (ops : Arith ν) (b : Bucket ν) (rtt : ν) :
    (b.fold ops (some rtt)).max = b.max.merge ops.max (some rtt) := by
  obtain ⟨id, sent, recv, sum, min, max⟩ := b
  cases max <;> rfl

/-- Without answers there are no extremes, and otherwise the mean lies between them. -/
theorem Accounts.mean (h : Accounts cfg b run) :
    (b.min = none ↔ b.recv = 0) ∧ (b.max = none ↔ b.recv = 0) ∧
      ∀ lo ∈ b.min, ∀ hi ∈ b.max, lo ≤ b.sum / b.recv ∧ b.sum / b.recv ≤ hi := by
  rw [h.min, h.max, h.recv, h.sum, List.min?_eq_none_iff, List.max?_eq_none_iff,
    List.length_eq_zero_iff]
  exact ⟨Iff.rfl, Iff.rfl, fun lo hlo hi hhi => mean_mem hlo hhi⟩

/-- The first sample of a bucket. -/
theorem accounts_new (c : Reading Rat) :
    Accounts cfg ((Bucket.new exact.toArith (bucketStart cfg c.ts)).fold exact.toArith c.rtt)
      [c] := by
  have hid : ∀ c' ∈ [c], bucketStart cfg c'.ts = bucketStart cfg c.ts := by
    intro c' hc'
    rw [List.mem_singleton.mp hc']
  cases hrtt : c.rtt with
  | none => exact ⟨List.cons_ne_nil _ _, hid, rfl, by simp [replies, hrtt, Bucket.fold, Bucket.new],
      by simp [replies, hrtt, Bucket.fold, Bucket.new, exact],
      by simp [replies, hrtt, Bucket.fold, Bucket.new],
      by simp [replies, hrtt, Bucket.fold, Bucket.new]⟩
  | some rtt => exact ⟨List.cons_ne_nil _ _, hid, rfl,
      by simp [replies, hrtt, Bucket.fold, Bucket.new],
      by simp [replies, hrtt, Bucket.fold, Bucket.new, exact],
      by simp [replies, hrtt, Bucket.fold, Bucket.new],
      by simp [replies, hrtt, Bucket.fold, Bucket.new]⟩

/-- A further sample of a bucket. -/
theorem Accounts.fold (h : Accounts cfg b run) (hid : b.id = bucketStart cfg c.ts) :
    Accounts cfg (b.fold exact.toArith c.rtt) (run ++ [c]) := by
  have hids : ∀ c' ∈ run ++ [c], bucketStart cfg c'.ts = b.id := by
    intro c' hc'
    rcases List.mem_append.mp hc' with hc' | hc'
    · exact h.id c' hc'
    · rw [List.mem_singleton.mp hc', hid]
  have hne : run ++ [c] ≠ [] := List.concat_ne_nil c run
  have hlen : (run ++ [c]).length = b.sent + 1 := by
    rw [List.length_append, h.sent]
    rfl
  -- a lost ping counts as sent only; a reply moves every total
  cases hrtt : c.rtt with
  | none =>
      have hreplies : replies (run ++ [c]) = replies run := by
        rw [replies_append, replies, replies, List.filterMap_cons_none hrtt, List.filterMap_nil,
          List.append_nil]
      refine ⟨hne, hids, hlen.symm, ?_, ?_, ?_, ?_⟩
      · rw [hreplies]
        exact h.recv
      · rw [hreplies]
        exact h.sum
      · rw [hreplies]
        exact h.min
      · rw [hreplies]
        exact h.max
  | some rtt =>
      have hreplies : replies (run ++ [c]) = replies run ++ [rtt] := by
        rw [replies_append, replies, replies, List.filterMap_cons_some hrtt, List.filterMap_nil]
      refine ⟨hne, hids, hlen.symm, ?_, ?_, ?_, ?_⟩
      · rw [hreplies, List.length_append]
        exact congrArg (· + 1) h.recv
      · rw [hreplies, List.sum_append, List.sum_singleton]
        exact congrArg (· + rtt) h.sum
      · rw [hreplies, ← reduce_min, reduce_append, reduce_min, ← h.min, fold_min, exact_min]
        rfl
      · rw [hreplies, ← reduce_max, reduce_append, reduce_max, ← h.max, fold_max, exact_max]
        rfl

end accounts

/-! ## Runs of calls -/

section tracks

variable {kind : Kind} {calls : List (Reading Rat)} {s s' : State cfg Rat} {c : Reading Rat}

/-- The buckets ever closed and the current one account for the runs of the calls. -/
def Tracks (kind : Kind) (calls : List (Reading Rat)) (s : State cfg Rat) : Prop :=
  ∃ closed, (s.buckets kind).Holds closed ∧ (s.cur kind = none → calls = []) ∧
    List.Forall₂ (Accounts cfg) (closed ++ (s.cur kind).toList) (runs cfg calls)

theorem Tracks.start (now : Time) : Tracks kind [] (State.start cfg Rat now) :=
  ⟨[], Ring.Holds.empty, fun _ => rfl, .nil⟩

/-- A call joins the last run or starts one, as its bucket does. -/
theorem Tracks.addToBucket (h : Tracks kind calls s)
    (hadd : s.addToBucket exact.toArith kind c.ts c.rtt = some s') :
    Tracks kind (calls ++ [c]) s' := by
  by_cases hsec : cfg.bucketSec = 0
  · rw [State.addToBucket, bucketId, if_pos hsec] at hadd
    cases hadd
  rw [addToBucket_eq hsec, Option.some.injEq] at hadd
  subst hadd
  obtain ⟨closed, hholds, hempty, hruns⟩ := h
  unfold Tracks
  simp only [update_self]
  -- no bucket yet, the bucket of the last run, or a later one: the cases of `add_to_bucket`
  cases hcur : s.cur kind with
  | none =>
      rw [hempty hcur]
      rw [hempty hcur, hcur, Option.toList_none, List.append_nil] at hruns
      have hclosed : closed = [] := List.forall₂_nil_right_iff.mp hruns
      subst hclosed
      refine ⟨[], ?_, fun h => (by cases h), ?_⟩
      · rw [State.roll, hcur]
        exact hholds
      · rw [State.openBucket, hcur]
        exact .cons (accounts_new c) .nil
  | some b =>
      rw [hcur] at hruns
      obtain ⟨front, run, hfront, hclosed, hrun⟩ := forall₂_concat hruns
      by_cases hid : b.id = bucketStart cfg c.ts
      · refine ⟨closed, ?_, fun h => (by cases h), ?_⟩
        · rw [State.roll, hcur]
          simp only [hid, if_true]
          exact hholds
        · have hsame : runs cfg (calls ++ [c]) = front ++ [run ++ [c]] :=
            runsBy_concat_same hfront fun c' hc' => (hrun.id c' hc').trans hid
          rw [hsame, State.openBucket, hcur]
          simp only [hid, if_true]
          exact List.rel_append hclosed (.cons (hrun.fold hid) .nil)
      · refine ⟨closed ++ [b], ?_, fun h => (by cases h), ?_⟩
        · rw [State.roll, hcur]
          simp only [hid, if_false]
          exact hholds.push b
        · have hnew : runs cfg (calls ++ [c]) = runs cfg calls ++ [[c]] := by
            refine runsBy_concat_new ?_
            intro c' hc' heq
            have hcalls : calls = front.flatten ++ run := by
              rw [← flatten_runsBy (fun c => bucketStart cfg c.ts) calls]
              show (runs cfg calls).flatten = _
              rw [hfront]
              simp
            -- the last call before this one is in the last run, whose bucket was another
            have hmem : c' ∈ run := by
              rw [hcalls, List.getLast?_append_of_ne_nil _ hrun.nonempty] at hc'
              exact List.mem_of_mem_getLast? hc'
            exact hid ((hrun.id c' hmem).symm.trans heq)
          rw [hnew, State.openBucket, hcur]
          simp only [hid, if_false]
          exact List.rel_append hruns (.cons (accounts_new c) .nil)

theorem Tracks.addAll (h : Tracks kind calls s) {calls' : List (Reading Rat)}
    (hadd : s.addAll exact.toArith kind calls' = some s') : Tracks kind (calls ++ calls') s' := by
  induction calls' generalizing calls s with
  | nil =>
      cases hadd
      rw [List.append_nil]
      exact h
  | cons c calls' ih =>
      rw [State.addAll, List.foldlM_cons] at hadd
      obtain ⟨t, ht, hrest⟩ := Option.bind_eq_some_iff.mp hadd
      have hstep := ih (h.addToBucket ht) hrest
      rwa [List.append_assoc] at hstep

/-- While no closed bucket had to leave, the buckets account for all runs. -/
theorem Tracks.all (h : Tracks kind calls s) (hfit : (runs cfg calls).length ≤ cfg.capacity + 1) :
    List.Forall₂ (Accounts cfg) (s.all kind) (runs cfg calls) := by
  obtain ⟨closed, hholds, hempty, hruns⟩ := h
  have hlen := hruns.length_eq
  have hclosed : closed.length ≤ cfg.capacity := by
    cases hcur : s.cur kind with
    | none =>
        rw [hempty hcur, hcur] at hlen
        rw [Option.toList_none, List.append_nil] at hlen
        rw [hlen]
        exact Nat.zero_le _
    | some b =>
        rw [hcur, List.length_append] at hlen
        have hone : (some b).toList.length = 1 := rfl
        omega
  have hitems : (s.buckets kind).items = closed := by
    rw [hholds, List.rtake, Nat.sub_eq_zero_of_le hclosed, List.drop_zero]
  rw [State.all, hitems]
  exact hruns

/-- Only a bucket width of zero makes a call raise. -/
theorem addAll_eq_none (ops : Arith ν) (s : State cfg ν) (calls : List (Reading ν)) :
    s.addAll ops kind calls = none ↔ cfg.bucketSec = 0 ∧ calls ≠ [] := by
  induction calls generalizing s with
  | nil => simp [State.addAll]
  | cons c calls ih =>
      rw [State.addAll, List.foldlM_cons]
      by_cases hsec : cfg.bucketSec = 0
      · have hraise : s.addToBucket ops kind c.ts c.rtt = none := by
          rw [State.addToBucket, bucketId, if_pos hsec]
          rfl
        rw [hraise]
        exact ⟨fun _ => ⟨hsec, List.cons_ne_nil _ _⟩, fun _ => rfl⟩
      · rw [addToBucket_eq hsec]
        show State.addAll ops _ kind calls = none ↔ _
        rw [ih]
        exact ⟨fun h => absurd h.1 hsec, fun h => absurd h.1 hsec⟩

end tracks

/-! ## Conservation -/

section totals

variable {buckets : List (Bucket Rat)} {parts : List (List (Reading Rat))}

/-- What the points of buckets sum up to is what their samples do. -/
theorem totals_of_accounts (h : List.Forall₂ (Accounts cfg) buckets parts) :
    ((buckets.map (Bucket.point exact.toArith)).map Point.sent).sum = parts.flatten.length ∧
    ((buckets.map (Bucket.point exact.toArith)).map Point.recv).sum =
      (replies parts.flatten).length ∧
    ((buckets.map (Bucket.point exact.toArith)).filterMap Point.min).min? =
      (replies parts.flatten).min? ∧
    ((buckets.map (Bucket.point exact.toArith)).filterMap Point.max).max? =
      (replies parts.flatten).max? := by
  induction h with
  | nil => exact ⟨rfl, rfl, rfl, rfl⟩
  | @cons b run _ _ hb _ ih =>
      obtain ⟨hsent, hrecv, hmin, hmax⟩ := ih
      rw [List.flatten_cons, replies_append, List.map_cons]
      refine ⟨?_, ?_, ?_, ?_⟩
      · rw [List.map_cons, List.sum_cons, hsent, List.length_append, ← hb.sent]
        rfl
      · rw [List.map_cons, List.sum_cons, hrecv, List.length_append, ← hb.recv]
        rfl
      · have hpoint : (b.point exact.toArith).min = (replies run).min? := hb.min
        rw [← reduce_min, ← reduce_min, reduce_append, reduce_filterMap_cons, hpoint, reduce_min,
          reduce_min, reduce_min, hmin]
      · have hpoint : (b.point exact.toArith).max = (replies run).max? := hb.max
        rw [← reduce_max, ← reduce_max, reduce_append, reduce_filterMap_cons, hpoint, reduce_max,
          reduce_max, reduce_max, hmax]

end totals

/-- A summary counts exactly these samples. -/
structure Summarizes (d : DaySummary Rat) (calls : List (Reading Rat)) : Prop where
  sent : d.sent = calls.length
  recv : d.recv = (replies calls).length
  lost : d.lost = (calls.length : Int) - (replies calls).length
  min : d.min = (replies calls).min?
  max : d.max = (replies calls).max?
  lossPct : 0 ≤ d.lossPct ∧ d.lossPct ≤ 100
  availability : 0 ≤ d.availability ∧ d.availability ≤ 100

/-- A share in percent. -/
theorem percent_mem {part whole : Rat} (hpart : 0 ≤ part) (hwhole : part ≤ whole)
    (hpos : 0 < whole) : 0 ≤ 100 * part / whole ∧ 100 * part / whole ≤ 100 := by
  refine ⟨by positivity, ?_⟩
  rw [div_le_iff₀ hpos]
  exact mul_le_mul_of_nonneg_left hwhole (by norm_num)

/-- What `day_summary` makes of the totals of a series. -/
theorem summarizes_of_totals {calls : List (Reading Rat)} (ser : List (Point Rat))
    {d : DaySummary Rat} (hsent : (ser.map Point.sent).sum = calls.length)
    (hrecv : (ser.map Point.recv).sum = (replies calls).length)
    (hmin : (ser.filterMap Point.min).min? = (replies calls).min?)
    (hmax : (ser.filterMap Point.max).max? = (replies calls).max?)
    (hdsent : d.sent = (ser.map Point.sent).sum) (hdrecv : d.recv = (ser.map Point.recv).sum)
    (hdlost : d.lost = (d.sent : Int) - d.recv)
    (hdmin : d.min = reduce exact.toArith.min (ser.filterMap Point.min))
    (hdmax : d.max = reduce exact.toArith.max (ser.filterMap Point.max))
    (hdloss : d.lossPct = if d.sent = 0 then 0 else 100 * ((d.sent : Rat) - d.recv) / d.sent)
    (hdavail : d.availability = if d.sent = 0 then 0 else 100 * (d.recv : Rat) / d.sent) :
    Summarizes d calls := by
  have hle : (d.recv : Rat) ≤ d.sent := by
    rw [hdrecv, hdsent, hsent, hrecv]
    exact_mod_cast length_replies_le calls
  refine ⟨hdsent.trans hsent, hdrecv.trans hrecv, ?_, ?_, ?_, ?_, ?_⟩
  · rw [hdlost, hdsent, hdrecv, hsent, hrecv]
  · rw [hdmin, exact_min, reduce_min, hmin]
  · rw [hdmax, exact_max, reduce_max, hmax]
  · rw [hdloss]
    split
    · norm_num
    · rename_i hne
      have hpos : (0 : Rat) < d.sent := by exact_mod_cast Nat.pos_of_ne_zero hne
      exact percent_mem (sub_nonneg.mpr hle) (sub_le_self _ (Nat.cast_nonneg _)) hpos
  · rw [hdavail]
    split
    · norm_num
    · rename_i hne
      have hpos : (0 : Rat) < d.sent := by exact_mod_cast Nat.pos_of_ne_zero hne
      exact percent_mem (Nat.cast_nonneg _) hle hpos

/-- The bucket of a run lies at or behind the cutoff. -/
def inWindow (cfg : Settings) (cutoff : Rat) (run : List (Reading ν)) : Bool :=
  run.all fun c => cutoff ≤ bucketStart cfg c.ts

theorem Accounts.inWindow_iff {b : Bucket Rat} {run : List (Reading Rat)}
    (h : Accounts cfg b run) (cutoff : Rat) : inWindow cfg cutoff run = true ↔ cutoff ≤ b.id := by
  simp only [inWindow, List.all_eq_true, decide_eq_true_eq]
  constructor
  · intro hall
    obtain ⟨c, hc⟩ := List.exists_mem_of_ne_nil _ h.nonempty
    rw [← h.id c hc]
    exact hall c hc
  · intro hle c hc
    rw [h.id c hc]
    exact hle

/-- A bucket passes the cutoff exactly if its run does. -/
theorem accounts_filter {buckets : List (Bucket Rat)} {parts : List (List (Reading Rat))}
    (h : List.Forall₂ (Accounts cfg) buckets parts) (cutoff : Rat) :
    List.Forall₂ (Accounts cfg) (buckets.filter fun b => ¬ (b.id : Rat) < cutoff)
      (parts.filter (inWindow cfg cutoff)) := by
  refine List.rel_filter (R := Accounts cfg) ?_ h
  intro b run hb
  show decide (¬ (b.id : Rat) < cutoff) = true ↔ inWindow cfg cutoff run = true
  rw [hb.inWindow_iff, decide_eq_true_eq, not_lt]

/-- The calls of a run pass together, so filtering runs is filtering calls. -/
theorem flatten_inWindow (cutoff : Rat) (calls : List (Reading ν)) :
    ((runs cfg calls).filter (inWindow cfg cutoff)).flatten =
      calls.filter fun c => cutoff ≤ bucketStart cfg c.ts := by
  rw [flatten_filter (fun c => cutoff ≤ bucketStart cfg c.ts)]
  · rw [runs, flatten_runsBy]
  · intro run hrun c hc
    rw [Bool.eq_iff_iff, inWindow, List.all_eq_true]
    constructor
    · intro hall
      exact hall c hc
    · intro hc' c' hkept'
      rw [decide_eq_true_eq] at hc' ⊢
      rwa [key_of_mem_runsBy hrun c' hkept' c hc]

/-- A summary of the buckets from a cutoff on counts the samples of these buckets. -/
theorem summarizes_daySummary {s : State cfg Rat} {kind : Kind} {calls : List (Reading Rat)}
    (h : List.Forall₂ (Accounts cfg) (s.all kind) (runs cfg calls)) (hours : Rat)
    (downsample : Int) (now : Time) :
    Summarizes (s.daySummary exact kind hours downsample now)
      (calls.filter fun c => now - hours * 3600 ≤ bucketStart cfg c.ts) := by
  obtain ⟨hsent, hrecv, hmin, hmax⟩ :=
    totals_of_accounts (accounts_filter h (now - hours * 3600))
  rw [flatten_inWindow] at hsent hrecv hmin hmax
  exact summarizes_of_totals (s.bucketSeries exact.toArith kind hours now) hsent hrecv hmin hmax
    rfl rfl rfl rfl rfl rfl rfl

/-- The runs are the samples in order, cut where the bucket changes. -/
structure MaximalRuns (cfg : Settings) (calls : List (Reading ν))
    (parts : List (List (Reading ν))) : Prop where
  samples : parts.flatten = calls
  nonempty : ∀ run ∈ parts, run ≠ []
  constant : ∀ run ∈ parts, ∀ c ∈ run, ∀ c' ∈ run, bucketStart cfg c.ts = bucketStart cfg c'.ts
  maximal : parts.IsChain fun run run' => ∀ c ∈ run, ∀ c' ∈ run',
    bucketStart cfg c.ts ≠ bucketStart cfg c'.ts

theorem maximalRuns_runs (calls : List (Reading ν)) : MaximalRuns cfg calls (runs cfg calls) where
  samples := flatten_runsBy _ calls
  nonempty := fun _ => ne_nil_of_mem_runsBy
  constant := fun _ => key_of_mem_runsBy
  maximal := isChain_runsBy calls

/-- **Bucketing conserves samples.** After any calls of one kind that close at most
`BUCKETS` buckets, the closed buckets and the current one account for the maximal runs of
samples of one bucket, a summary of any period counts the samples of its buckets,
and downsampling by any factor keeps the totals of a series. Calls raise only where
the width of a bucket is zero. -/
theorem bucketing_conserves (cfg : Settings) (kind : Kind) (start : Time)
    (calls : List (Reading Rat)) :
    MaximalRuns cfg calls (runs cfg calls) ∧
    ((State.start cfg Rat start).addAll exact.toArith kind calls = none ↔
      cfg.bucketSec = 0 ∧ calls ≠ []) ∧
    (∀ s, (State.start cfg Rat start).addAll exact.toArith kind calls = some s →
      (runs cfg calls).length ≤ cfg.capacity + 1 →
      List.Forall₂ (fun b run => Accounts cfg b run ∧ (b.min = none ↔ b.recv = 0) ∧
          (b.max = none ↔ b.recv = 0) ∧
          ∀ lo ∈ b.min, ∀ hi ∈ b.max, lo ≤ b.sum / b.recv ∧ b.sum / b.recv ≤ hi)
        (s.all kind) (runs cfg calls) ∧
      ∀ hours downsample now, Summarizes (s.daySummary exact kind hours downsample now)
        (calls.filter fun c => now - hours * 3600 ≤ bucketStart cfg c.ts)) ∧
    ∀ ser factor, SameTotals ser (downsampleSeries exact.toArith ser factor) := by
  refine ⟨maximalRuns_runs calls, addAll_eq_none _ _ _, ?_, sameTotals_downsampleSeries⟩
  intro s hadd hfit
  have htracks : Tracks kind ([] ++ calls) s := (Tracks.start start).addAll hadd
  have haccounts := Tracks.all htracks hfit
  refine ⟨haccounts.imp fun b run hb => ⟨hb, hb.mean⟩, ?_⟩
  intro hours downsample now
  exact summarizes_daySummary haccounts hours downsample now

end SrxProbe.PingApp
