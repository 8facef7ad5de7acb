import SrxProbe.Lib.Mean
import SrxProbe.PingApp.Held

/-!
# The average of a summary

`day_summary` averages the averages of the buckets, and `downsample_series` those of the
buckets it merges. Each bucket's own average is that of its replies, but buckets with few
replies weigh as much as those with many.
-/

namespace SrxProbe.PingApp

open SrxProbe.Lib

variable {cfg : Settings}

/-! ## Parts of a series -/

section parts

variable {α β : Type}

/-- The chunks of the loop of `downsample_series`. -/
def chunks (factor : Nat) : Nat → List α → List (List α)
  | 0, _ => []
  | _, [] => []
  | n + 1, first :: rest =>
      (first :: rest.take (factor - 1)) :: chunks factor n (rest.drop (factor - 1))

/-- What each item of a downsampled series is merged from. -/
def mergedParts (factor : Int) (l : List α) : List (List α) :=
  if factor ≤ 1 then l.map fun x => [x] else chunks factor.toNat l.length l

/-- A point shows the mean of these replies. -/
def Shows (point : Point Rat) (items : List Rat) : Prop := point.avg = mean? items

theorem arith_mean (values : List Rat) : exact.toArith.mean values = mean? values := by
  have hfold : values.foldl exact.toArith.add exact.toArith.zero = values.sum :=
    List.sum_eq_foldl.symm
  rw [Arith.mean, hfold]
  rfl

/-- The averages of points that show the means of groups. -/
theorem averages_of_shows {ser : List (Point Rat)} {groups : List (List Rat)}
    (h : List.Forall₂ Shows ser groups) : ser.filterMap Point.avg = groups.filterMap mean? := by
  induction h with
  | nil => rfl
  | cons hhead _ ih =>
      rw [List.filterMap_cons, List.filterMap_cons, ih, hhead]

theorem markedMeans_all (groups : List (List Rat)) :
    markedMeans (groups.map (Prod.mk true)) = groups.filterMap mean? := by
  rw [markedMeans, List.filterMap_map]
  rfl

theorem flatMap_all (groups : List (List Rat)) :
    (groups.map (Prod.mk true)).flatMap Prod.snd = groups.flatten := by
  rw [List.flatMap_map, List.flatMap_id']

/-- A merged point shows the mean of all its replies exactly if its buckets are balanced. -/
theorem mergePoints_shows {first : Point Rat} {others : List (Point Rat)}
    {groups : List (List Rat)} (h : List.Forall₂ Shows (first :: others) groups) :
    Shows (mergePoints exact.toArith first others) groups.flatten ↔
      Balanced (groups.map (Prod.mk true)) := by
  have havg : (mergePoints exact.toArith first others).avg = mean? (groups.filterMap mean?) := by
    show exact.toArith.mean ((first :: others).filterMap Point.avg) = _
    rw [averages_of_shows h, arith_mean]
  rw [Shows, havg, ← mean?_markedMeans_iff, markedMeans_all, flatMap_all]

theorem mergeChunks_shows (factor : Nat) {n : Nat} {ser : List (Point Rat)}
    {groups : List (List Rat)} (h : List.Forall₂ Shows ser groups) :
    List.Forall₂ (fun point part => Shows point part.flatten ↔ Balanced (part.map (Prod.mk true)))
      (mergeChunks exact.toArith factor n ser) (chunks factor n groups) := by
  induction n generalizing ser groups with
  | zero => exact .nil
  | succ n ih =>
      cases h with
      | nil => exact .nil
      | cons hhead htail =>
          refine .cons ?_ (ih (List.forall₂_drop _ htail))
          exact mergePoints_shows (.cons hhead (List.forall₂_take _ htail))

/-- One bucket is balanced. -/
theorem balanced_single (items : List Rat) : Balanced [(true, items)] := by
  refine mean?_markedMeans_iff.mp ?_
  cases hmean : mean? items with
  | none =>
      have hmarked : markedMeans [(true, items)] = [] := List.filterMap_cons_none hmean
      rw [hmarked, List.flatMap_singleton, hmean]
      rfl
  | some m =>
      have hmarked : markedMeans [(true, items)] = [m] := List.filterMap_cons_some hmean
      rw [hmarked, List.flatMap_singleton, hmean]
      simp [mean?]

theorem downsampleSeries_shows (factor : Int) {ser : List (Point Rat)}
    {groups : List (List Rat)} (h : List.Forall₂ Shows ser groups) :
    List.Forall₂ (fun point part => Shows point part.flatten ↔ Balanced (part.map (Prod.mk true)))
      (downsampleSeries exact.toArith ser factor) (mergedParts factor groups) := by
  unfold downsampleSeries mergedParts
  by_cases hfactor : factor ≤ 1
  · rw [if_pos hfactor, if_pos (by simp [hfactor]), List.forall₂_map_right_iff]
    refine h.imp fun point items hpoint => ?_
    rw [List.flatten_singleton]
    exact ⟨fun _ => balanced_single items, fun _ => hpoint⟩
  · rw [if_neg hfactor]
    cases h with
    | nil =>
        rw [if_pos (by simp)]
        exact .nil
    | cons hhead htail =>
        rw [if_neg (by simp [hfactor]), ← (List.Forall₂.cons hhead htail).length_eq]
        exact mergeChunks_shows _ (.cons hhead htail)

/-- Where each pair has the one property exactly if its right side has the other. -/
theorem forall₂_iff {P : α → β → Prop} {Q : β → Prop} {l : List α} {l' : List β}
    (h : List.Forall₂ (fun x y => P x y ↔ Q y) l l') : List.Forall₂ P l l' ↔ ∀ y ∈ l', Q y := by
  induction h with
  | nil => simp
  | cons hhead _ ih => rw [List.forall₂_cons, List.forall_mem_cons, hhead, ih]

end parts

/-! ## The average of a period -/

section window

variable {calls : List (Reading Rat)} {cutoff : Rat}

/-- The buckets that samples fell into from the cutoff on: whether the monitor still holds
the bucket, and the replies in it. -/
def windowGroups (cfg : Settings) (cutoff : Rat) (calls : List (Reading Rat)) :
    List (Bool × List Rat) :=
  let parts := runs cfg calls
  let marked := (parts.rdrop (cfg.capacity + 1)).map (Prod.mk false) ++
    (parts.rtake (cfg.capacity + 1)).map (Prod.mk true)
  (marked.filter fun g => inWindow cfg cutoff g.2).map fun g => (g.1, replies g.2)

/-- The replies of each bucket in the series of a period. -/
def heldReplies (cfg : Settings) (cutoff : Rat) (calls : List (Reading Rat)) :
    List (List Rat) :=
  ((heldRuns cfg calls).filter (inWindow cfg cutoff)).map replies

/-- The averages of a summary are those of all replies: of the period, and of the buckets
that each item of the series was merged from. -/
structure TrueAverages (cfg : Settings) (calls : List (Reading Rat)) (cutoff : Rat)
    (downsample : Int) (d : DaySummary Rat) : Prop where
  day : d.avg = mean? (replies (calls.filter fun c => cutoff ≤ bucketStart cfg c.ts))
  series : List.Forall₂ (fun point part => point.avg = mean? part.flatten) d.series
    (mergedParts downsample (heldReplies cfg cutoff calls))

theorem markedMeans_windowGroups :
    markedMeans (windowGroups cfg cutoff calls) =
      (heldReplies cfg cutoff calls).filterMap mean? := by
  unfold markedMeans windowGroups heldReplies heldRuns
  simp only [List.filter_append, List.map_append, List.filterMap_append, List.filter_map,
    List.filterMap_map, List.map_map]
  have hgone : ∀ l : List (List (Reading Rat)), l.filterMap
      ((fun g : Bool × List Rat => if g.1 then mean? g.2 else none) ∘
        (fun g => (g.1, replies g.2)) ∘ Prod.mk false) = [] := by
    intro l
    exact List.filterMap_eq_nil_iff.mpr fun _ _ => rfl
  rw [hgone, List.nil_append]
  rfl

theorem map_snd_windowGroups : (windowGroups cfg cutoff calls).map Prod.snd =
    ((runs cfg calls).filter (inWindow cfg cutoff)).map replies := by
  have hparts : ∀ parts : List (List (Reading Rat)), ∀ n,
      ((parts.rdrop n).map (Prod.mk false) ++ (parts.rtake n).map (Prod.mk true)).map Prod.snd =
        parts := by
    intro parts n
    rw [List.map_append, List.map_map, List.map_map]
    simp [List.rdrop, List.rtake, Function.comp_def]
  unfold windowGroups
  rw [List.map_map]
  conv_rhs => rw [← hparts (runs cfg calls) (cfg.capacity + 1), List.filter_map, List.map_map]
  rfl

theorem flatMap_windowGroups : (windowGroups cfg cutoff calls).flatMap Prod.snd =
    replies (calls.filter fun c => cutoff ≤ bucketStart cfg c.ts) := by
  rw [← flatten_inWindow, List.flatMap_def, map_snd_windowGroups]
  exact List.filterMap_flatten.symm

theorem Accounts.shows {b : Bucket Rat} {run : List (Reading Rat)} (h : Accounts cfg b run) :
    Shows (b.point exact.toArith) (replies run) := by
  show (if b.recv = 0 then none else some (b.sum / b.recv)) = mean? (replies run)
  rw [h.recv, h.sum]
  exact if_congr List.isEmpty_iff_length_eq_zero.symm rfl rfl

variable {s : State cfg Rat} {kind : Kind} {start : Time} {samples : List (Kind × Reading Rat)}

/-- The points of a series show the means of the replies in their buckets. -/
theorem shows_bucketSeries
    (hadd : (State.start cfg Rat start).addEach exact.toArith samples = some s)
    (hours : Rat) (now : Time) :
    List.Forall₂ Shows (s.bucketSeries exact.toArith kind hours now)
      (heldReplies cfg (now - hours * 3600) (ofKind kind samples)) := by
  have hbuckets := accounts_filter (held_addEach hadd kind) (now - hours * 3600)
  rw [State.bucketSeries, heldReplies, List.forall₂_map_left_iff, List.forall₂_map_right_iff]
  exact hbuckets.imp fun b run hb => hb.shows

/-- **When the averages are true**: where the buckets of the period are balanced, and the
buckets of each merged item are. -/
theorem averages_true_iff
    (hadd : (State.start cfg Rat start).addEach exact.toArith samples = some s)
    (kind : Kind) (hours : Rat) (downsample : Int) (now : Time) :
    TrueAverages cfg (ofKind kind samples) (now - hours * 3600) downsample
        (s.daySummary exact kind hours downsample now) ↔
      Balanced (windowGroups cfg (now - hours * 3600) (ofKind kind samples)) ∧
        ∀ part ∈ mergedParts downsample
            (heldReplies cfg (now - hours * 3600) (ofKind kind samples)),
          Balanced (part.map (Prod.mk true)) := by
  have hshows : List.Forall₂ Shows (s.bucketSeries exact.toArith kind hours now)
      (heldReplies cfg (now - hours * 3600) (ofKind kind samples)) :=
    shows_bucketSeries hadd hours now
  have hday : (s.daySummary exact kind hours downsample now).avg =
      mean? (markedMeans (windowGroups cfg (now - hours * 3600) (ofKind kind samples))) := by
    rw [markedMeans_windowGroups, ← averages_of_shows hshows, ← arith_mean]
    rfl
  have hparts := forall₂_iff (downsampleSeries_shows downsample hshows)
  constructor
  · intro h
    refine ⟨mean?_markedMeans_iff.mp ?_, hparts.mp h.series⟩
    rw [flatMap_windowGroups, ← hday]
    exact h.day
  · rintro ⟨hbalanced, hall⟩
    refine ⟨?_, hparts.mpr hall⟩
    rw [hday, ← flatMap_windowGroups]
    exact mean?_markedMeans_iff.mpr hbalanced

end window

/-! ## Runs -/

theorem bucketCount_week : 0 ≤ bucketCount 60 7 := by decide

/-- Buckets of a minute, kept for a week. -/
def weekly : Settings := ⟨60, 7, bucketCount_week⟩

/-- Two replies in one minute, a slower pair in the next, none in the last. -/
def evenSamples : List (Kind × Reading Rat) :=
  [(.default, ⟨0, some 10⟩), (.default, ⟨30, some 20⟩), (.big, ⟨31, some 5⟩),
    (.default, ⟨60, some 30⟩), (.default, ⟨61, some 50⟩), (.default, ⟨120, none⟩)]

theorem averages_true_iff_even :
    ∃ s, (State.start weekly Rat 0).addEach exact.toArith evenSamples = some s ∧
      TrueAverages weekly (ofKind .default evenSamples) (130 - 24 * 3600) 2
        (s.daySummary exact .default 24 2 130) := by
  have hsome : ((State.start weekly Rat 0).addEach exact.toArith evenSamples).isSome = true := by
    decide +kernel
  obtain ⟨s, hadd⟩ := Option.isSome_iff_exists.mp hsome
  refine ⟨s, hadd, (averages_true_iff hadd .default 24 2 130).mpr ⟨⟨?_, ?_⟩, ?_⟩⟩
  · decide +kernel
  · decide +kernel
  · have hparts : mergedParts 2 (heldReplies weekly (130 - 24 * 3600)
        (ofKind .default evenSamples)) = [[[10, 20], [30, 50]], [[]]] := by
      decide +kernel
    rw [hparts]
    intro part hpart
    simp only [List.mem_cons, List.not_mem_nil, or_false] at hpart
    rcases hpart with rfl | rfl
    · exact ⟨by decide, by decide +kernel⟩
    · exact ⟨by decide, by decide +kernel⟩

/-- A reply in one minute, and three slower ones in the next. -/
def unevenSamples : List (Kind × Reading Rat) :=
  [(.default, ⟨0, some 10⟩), (.default, ⟨60, some 20⟩), (.default, ⟨61, some 20⟩),
    (.default, ⟨62, some 20⟩)]

/-- The summary shows 15 where the mean of the replies is 17.5. -/
theorem average_of_averages :
    ∃ s, (State.start weekly Rat 0).addEach exact.toArith unevenSamples = some s ∧
      ¬ TrueAverages weekly (ofKind .default unevenSamples) (90 - 24 * 3600) 1
        (s.daySummary exact .default 24 1 90) := by
  have hshown : ((State.start weekly Rat 0).addEach exact.toArith unevenSamples).map
      (fun s => (s.daySummary exact .default 24 1 90).avg) = some (some 15) := by
    decide +kernel
  obtain ⟨s, hadd, havg⟩ := Option.map_eq_some_iff.mp hshown
  refine ⟨s, hadd, fun h => ?_⟩
  have hmean : mean? (replies ((ofKind .default unevenSamples).filter fun c =>
      (90 - 24 * 3600 : Rat) ≤ bucketStart weekly c.ts)) = some (35 / 2) := by
    decide +kernel
  have hday := h.day
  rw [havg, hmean] at hday
  revert hday
  decide +kernel

end SrxProbe.PingApp
